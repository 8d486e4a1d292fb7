import EquipmentMonitoring.Backend.ArrivalOrder
import EquipmentMonitoring.Foundations.Segments

/-!
# History Windows and their Segments (`read_device_history`, `lineSegments`)

The backend reads newest first, with one row more than it shows, and turns the rows around. The
dashboard draws a line through points until one has a gap before it.

## Key Results

- `Db.historyWindow_window`: the rows shown are the newest ones, in ascending order
- `gapBefore_iff`: the flag says what the point before it breaks
- `sound_runs`: what holds inside of a segment
- `history_exact`: all of it, for every range
-/

namespace EquipmentMonitoring.Frontend

/-- `lineSegments`. -/
def lineSegments (points : List Backend.HistoryPoint) : List (List Backend.HistoryPoint) :=
  segmentsBy Backend.HistoryPoint.gapBefore points

end EquipmentMonitoring.Frontend

namespace EquipmentMonitoring.Backend

/-! ## What a History Should be -/

/-- At most seven days, and not empty. -/
def ValidRange (rangeStart rangeEnd : Time) : Prop :=
  rangeStart < rangeEnd ∧ rangeEnd - rangeStart ≤ maxRange

/-- The rows of a device in a range. -/
def Db.matching (db : Db) (deviceId : Identifier) (rangeStart rangeEnd : Time) : List Telemetry :=
  db.telemetry.rows.filter fun row => decide (row.deviceId = deviceId) &&
    (decide (rangeStart ≤ row.eventAt) && decide (row.eventAt < rangeEnd))

/-- Ascending (event_at, id). -/
def Precedes (r r' : Telemetry) : Prop :=
  r.eventAt < r'.eventAt ∨ r.eventAt = r'.eventAt ∧ r.id < r'.id

/-- The newest of some rows, as many as are shown, in ascending order. -/
structure Window (rows window : List Telemetry) : Prop where
  newest : ∃ older, (older ++ window).Perm rows ∧ (older ++ window).Pairwise Precedes
  length : window.length = min rows.length maxPoints

/-- A point shows a row, and its time is the field it names. -/
structure Shows (row : Telemetry) (point : HistoryPoint) : Prop where
  measuredAt : point.measuredAt = row.measuredAt
  gatewayReceivedAt : point.gatewayReceivedAt = row.gatewayReceivedAt
  clockQuality : point.clockQuality = row.quality.clock
  value : point.value = row.value
  unit : point.unit = row.unit
  timestampSource : point.timestampSource = row.timestampSource
  time : point.eventAt = row.eventAt
  named : match point.timestampSource with
    | .measuredAt => point.measuredAt = some point.eventAt
    | .gatewayReceivedAt => point.gatewayReceivedAt = point.eventAt

/-- A reading does not continue the one before it. -/
def Breaks (previous row : Telemetry) : Prop :=
  row.bootId ≠ previous.bootId ∨ row.timestampSource ≠ previous.timestampSource ∨
    row.sequenceNumber.value ≠ previous.sequenceNumber.value + 1 ∨
    previous.eventAt + microseconds 120 < row.eventAt

/-- The next reading of a line. -/
structure Continues (previous row : Telemetry) : Prop where
  sequenceNumber : row.sequenceNumber.value = previous.sequenceNumber.value + 1
  later : previous.eventAt ≤ row.eventAt
  soon : row.eventAt ≤ previous.eventAt + microseconds 120

/-- What a line may be drawn through. -/
structure SoundRun (run : List Telemetry) : Prop where
  nonempty : run ≠ []
  constant : ∀ r ∈ run, ∀ r' ∈ run, r.bootId = r'.bootId ∧ r.timestampSource = r'.timestampSource
  steps : run.IsChain Continues

/-! ## The Window -/

section Window

variable {db : Db} {deviceId : Identifier} {rangeStart rangeEnd : Time} {r r' : Telemetry}

theorem precedes_trans (a b c : Telemetry) (hab : Precedes a b) (hbc : Precedes b c) :
    Precedes a c := by
  rcases hab with hab | ⟨hab, hid⟩
  · rcases hbc with hbc | ⟨hbc, -⟩
    · exact .inl (hab.trans hbc)
    · exact .inl (hab.trans_eq hbc)
  · rcases hbc with hbc | ⟨hbc, hid'⟩
    · exact .inl (hab.trans_lt hbc)
    · exact .inr ⟨hab.trans hbc, hid.trans hid'⟩

theorem precedes_irrefl (a : Telemetry) : ¬ Precedes a a := by
  rintro (h | ⟨-, h⟩)
  · exact lt_irrefl _ h
  · exact lt_irrefl _ h

theorem Precedes.le (h : Precedes r r') : r.eventAt ≤ r'.eventAt := by
  rcases h with h | ⟨h, -⟩
  · exact h.le
  · exact h.le

theorem precedes_of_newestFirst (hid : r.id ≠ r'.id) (h : newestFirst r' r = true) :
    Precedes r r' := by
  rcases newestFirst_iff.mp h with hlt | ⟨heq, hle⟩
  · exact .inl hlt
  · exact .inr ⟨heq.symm, lt_of_le_of_ne hle hid⟩

/-- The rows of a history, from the oldest to the newest. -/
def Db.historyWindow (db : Db) (deviceId : Identifier) (rangeStart rangeEnd : Time) :
    List Telemetry :=
  ((db.readHistoryRows deviceId rangeStart rangeEnd (maxPoints + 1)).take maxPoints).reverse

theorem Db.matching_ids (db : Db) (deviceId : Identifier) (rangeStart rangeEnd : Time) :
    (db.matching deviceId rangeStart rangeEnd).Pairwise fun r r' => r.id ≠ r'.id := by
  have hids := db.telemetry_ids
  rw [List.Nodup, List.pairwise_map] at hids
  exact hids.filter _

theorem Db.historyWindow_window (db : Db) (deviceId : Identifier) (rangeStart rangeEnd : Time) :
    Window (db.matching deviceId rangeStart rangeEnd)
      (db.historyWindow deviceId rangeStart rangeEnd) := by
  set rows := db.matching deviceId rangeStart rangeEnd with hrows
  have hread : db.historyWindow deviceId rangeStart rangeEnd =
      ((rows.mergeSort newestFirst).take maxPoints).reverse := by
    rw [Db.historyWindow, Db.readHistoryRows, List.take_take, Nat.min_eq_left (Nat.le_succ _)]
    rfl
  have hperm : (rows.mergeSort newestFirst).Perm rows := List.mergeSort_perm rows newestFirst
  -- Newest first, then turned round: the window is the tail of the sorted rows.
  have hsplit : ((rows.mergeSort newestFirst).drop maxPoints).reverse ++
      ((rows.mergeSort newestFirst).take maxPoints).reverse =
        (rows.mergeSort newestFirst).reverse := by
    rw [← List.reverse_append, List.take_append_drop]
  refine ⟨⟨((rows.mergeSort newestFirst).drop maxPoints).reverse, ?_, ?_⟩, ?_⟩
  · rw [hread, hsplit]
    exact (List.reverse_perm _).trans hperm
  · rw [hread, hsplit, List.pairwise_reverse]
    have hids : (rows.mergeSort newestFirst).Pairwise fun r r' => r.id ≠ r'.id :=
      hperm.symm.pairwise (db.matching_ids deviceId rangeStart rangeEnd) fun h => h.symm
    refine List.Pairwise.imp ?_
      ((List.pairwise_mergeSort newestFirst_trans newestFirst_total rows).and hids)
    rintro r r' ⟨hfirst, hid⟩
    exact precedes_of_newestFirst hid.symm hfirst
  · rw [hread, List.length_reverse, List.length_take, hperm.length_eq, Nat.min_comm]

theorem Db.readHistoryRows_length (db : Db) (deviceId : Identifier) (rangeStart rangeEnd : Time) :
    (db.readHistoryRows deviceId rangeStart rangeEnd (maxPoints + 1)).length > maxPoints ↔
      maxPoints < (db.matching deviceId rangeStart rangeEnd).length := by
  have hlength : (db.newestReadings deviceId fun row =>
      decide (rangeStart ≤ row.eventAt) && decide (row.eventAt < rangeEnd)).length =
        (db.matching deviceId rangeStart rangeEnd).length := List.length_mergeSort _
  rw [Db.readHistoryRows, List.length_take, hlength]
  omega

theorem Window.sorted {rows window : List Telemetry} (h : Window rows window) :
    window.Pairwise Precedes := by
  obtain ⟨older, -, hsorted⟩ := h.newest
  exact (List.pairwise_append.mp hsorted).2.1

theorem Window.mem {rows window : List Telemetry} (h : Window rows window) (hr : r ∈ window) :
    r ∈ rows := by
  obtain ⟨older, hperm, -⟩ := h.newest
  exact hperm.subset (List.mem_append_right older hr)

/-- A window holds what lies between two of its rows. -/
theorem Window.mem_of_precedes {rows window : List Telemetry} (h : Window rows window)
    (hr : r ∈ window) (hr' : r' ∈ rows) (hprecedes : Precedes r r') : r' ∈ window := by
  obtain ⟨older, hperm, hsorted⟩ := h.newest
  rcases List.mem_append.mp (hperm.symm.subset hr') with hold | hnew
  · have hback := (List.pairwise_append.mp hsorted).2.2 r' hold r hr
    exact absurd (precedes_trans _ _ _ hprecedes hback) (precedes_irrefl r)
  · exact hnew

theorem mem_matching : r ∈ db.matching deviceId rangeStart rangeEnd ↔
    r ∈ db.telemetry ∧ r.deviceId = deviceId ∧ rangeStart ≤ r.eventAt ∧ r.eventAt < rangeEnd := by
  rw [Db.matching, mem_readings, Bool.and_eq_true, decide_eq_true_eq, decide_eq_true_eq]

end Window

/-! ## The Points -/

section Points

variable {previous : Option Telemetry} {r row : Telemetry}

theorem historyPoints_eq (previous : Option Telemetry) (rows : List Telemetry) :
    historyPoints previous rows =
      (withPrevious previous rows).map fun s => HistoryPoint.ofRow s.1 s.2 := by
  induction rows generalizing previous with
  | nil => rfl
  | cons row rest ih => rw [historyPoints, withPrevious, List.map_cons, ih]

/-- The rule of the query and the condition of the service agree. -/
theorem eventAt_eq (row : Telemetry) :
    match row.timestampSource with
    | .measuredAt => row.measuredAt = some row.eventAt
    | .gatewayReceivedAt => row.gatewayReceivedAt = row.eventAt := by
  unfold Telemetry.timestampSource Telemetry.eventAt eventTime
  cases row.measuredAt <;> cases row.quality.clock <;> rfl

theorem shows_ofRow (previous : Option Telemetry) (row : Telemetry) :
    Shows row (.ofRow previous row) := by
  refine ⟨rfl, rfl, rfl, rfl, rfl, rfl, rfl, ?_⟩
  exact eventAt_eq row

theorem hasGapBefore_some : hasGapBefore (some r) row = true ↔ Breaks r row := by
  simp only [hasGapBefore, Bool.or_eq_true, decide_eq_true_eq, Breaks, maxConnectedGap, gt_iff_lt,
    lt_sub_iff_add_lt']
  tauto

/-- The flag of a point says what the point before it breaks. -/
theorem gapBefore_iff {rows : List Telemetry} {k : Nat} {point : HistoryPoint}
    (hrow : rows[k]? = some row) (hpoint : (historyPoints none rows)[k]? = some point) :
    point.gapBefore = true ↔ k = 0 ∨ ∃ previous, rows[k - 1]? = some previous ∧
      Breaks previous row := by
  rw [historyPoints_eq, List.getElem?_map, withPrevious_getElem?, hrow] at hpoint
  obtain rfl := Option.some.inj hpoint
  by_cases hk : k = 0
  · simp [hk, HistoryPoint.ofRow, hasGapBefore]
  · obtain ⟨hlt, -⟩ := List.getElem?_eq_some_iff.mp hrow
    obtain ⟨earlier, hprevious⟩ : ∃ earlier, rows[k - 1]? = some earlier :=
      ⟨_, List.getElem?_eq_getElem (by omega)⟩
    rw [if_neg hk, hprevious]
    simp only [HistoryPoint.ofRow, hasGapBefore_some, hk, false_or, Option.some.injEq,
      exists_eq_left']

end Points

/-! ## The Segments -/

section Segments

variable {r r' : Telemetry} {run : List Telemetry}

theorem continues_of_not_breaks (hprecedes : Precedes r r') (h : ¬ Breaks r r') :
    (r'.bootId = r.bootId ∧ r'.timestampSource = r.timestampSource) ∧ Continues r r' := by
  simp only [Breaks, not_or, not_not, not_lt] at h
  obtain ⟨hboot, hsource, hsequence, hsoon⟩ := h
  exact ⟨⟨hboot, hsource⟩, hsequence, hprecedes.le, hsoon⟩

/-- What neighbours share, all share. -/
theorem constant_of_isChain
    (h : run.IsChain fun r r' => r'.bootId = r.bootId ∧ r'.timestampSource = r.timestampSource) :
    ∀ r ∈ run, ∀ r' ∈ run, r.bootId = r'.bootId ∧ r.timestampSource = r'.timestampSource := by
  let same : Telemetry → Telemetry → Prop := fun r r' =>
    r'.bootId = r.bootId ∧ r'.timestampSource = r.timestampSource
  have : Trans same same same := ⟨fun h h' => ⟨h'.1.trans h.1, h'.2.trans h.2⟩⟩
  have : Std.Symm same := ⟨fun _ _ h => ⟨h.1.symm, h.2.symm⟩⟩
  have hpairwise : run.Pairwise same := List.isChain_iff_pairwise.mp h
  intro r hr r' hr'
  have hsame : same r' r := hpairwise.forall_of_forall (fun _ _ => ⟨rfl, rfl⟩) hr' hr
  exact hsame

/-- The segments of the points of sorted rows show sound runs of these rows. -/
theorem sound_runs {rows : List Telemetry} (hsorted : rows.Pairwise Precedes) :
    ∃ runs : List (List Telemetry), runs.flatten = rows ∧ (∀ run ∈ runs, SoundRun run) ∧
      List.Forall₂ (List.Forall₂ Shows) runs (Frontend.lineSegments (historyPoints none rows)) := by
  -- cut the rows with their predecessors, as the points are cut
  set pairs := withPrevious none rows with hpairs
  have hrows : pairs.map Prod.snd = rows := map_snd_withPrevious none rows
  let starts : Option Telemetry × Telemetry → Bool := fun s => hasGapBefore s.1 s.2
  have hsegments : Frontend.lineSegments (historyPoints none rows) =
      (segmentsBy starts pairs).map (List.map fun s => HistoryPoint.ofRow s.1 s.2) := by
    rw [Frontend.lineSegments, historyPoints_eq, segmentsBy_map]
    rfl
  refine ⟨(segmentsBy starts pairs).map (List.map Prod.snd), ?flatten, ?sound, ?shows⟩
  case flatten => rw [← List.map_flatten, segmentsBy_flatten, hrows]
  case sound =>
    intro run hrun
    obtain ⟨segment, hsegment, rfl⟩ := List.mem_map.mp hrun
    obtain ⟨hne, hcontinued⟩ := segmentsBy_chain starts pairs segment hsegment
    have hprevious := segmentsBy_isChain (withPrevious_isChain none rows) hsegment
    have hprecedes : segment.IsChain fun s s' => Precedes s.2 s'.2 := by
      refine segmentsBy_isChain (R := fun s s' => Precedes s.2 s'.2) ?_ hsegment
      refine List.Pairwise.isChain ?_
      rw [← hrows, List.pairwise_map] at hsorted
      exact hsorted
    have hsteps : segment.IsChain fun s s' =>
        (s'.2.bootId = s.2.bootId ∧ s'.2.timestampSource = s.2.timestampSource) ∧
          Continues s.2 s'.2 := by
      refine (isChain_and (isChain_and hcontinued hprevious) hprecedes).imp ?_
      rintro s s' ⟨⟨hno, hprev⟩, hlater⟩
      refine continues_of_not_breaks hlater ?_
      rw [← hasGapBefore_some, ← hprev]
      exact Bool.not_eq_true _ ▸ hno
    refine ⟨by simpa using hne, constant_of_isChain ?_, ?_⟩
    · exact (List.isChain_map Prod.snd).mpr (hsteps.imp fun _ _ h => h.1)
    · exact (List.isChain_map Prod.snd).mpr (hsteps.imp fun _ _ h => h.2)
  case shows =>
    rw [hsegments, List.forall₂_map_left_iff, List.forall₂_map_right_iff, List.forall₂_same]
    intro segment _
    rw [List.forall₂_map_left_iff, List.forall₂_map_right_iff, List.forall₂_same]
    exact fun s _ => shows_ofRow s.1 s.2

theorem lineSegments_flatten (points : List HistoryPoint) :
    (Frontend.lineSegments points).flatten = points := segmentsBy_flatten _ points

end Segments

/-! ## Two Ranges -/

/-- Neighbours in one window are neighbours in every other one that holds both. -/
theorem adjacent_in_windows {db : Db} {deviceId : Identifier}
    {rangeStart rangeEnd rangeStart' rangeEnd' : Time} {k j : Nat} {q r : Telemetry}
    (hq : (db.historyWindow deviceId rangeStart rangeEnd)[k]? = some q)
    (hr : (db.historyWindow deviceId rangeStart rangeEnd)[k + 1]? = some r)
    (hq' : q ∈ db.historyWindow deviceId rangeStart' rangeEnd')
    (hr' : (db.historyWindow deviceId rangeStart' rangeEnd')[j]? = some r) :
    j ≠ 0 ∧ (db.historyWindow deviceId rangeStart' rangeEnd')[j - 1]? = some q := by
  have hwindow := db.historyWindow_window deviceId rangeStart rangeEnd
  have hwindow' := db.historyWindow_window deviceId rangeStart' rangeEnd'
  have hqmem : q ∈ db.historyWindow deviceId rangeStart rangeEnd := List.mem_of_getElem? hq
  have hrmem : r ∈ db.historyWindow deviceId rangeStart rangeEnd := List.mem_of_getElem? hr
  have hqr : Precedes q r := by
    obtain ⟨hk, rfl⟩ := List.getElem?_eq_some_iff.mp hq
    obtain ⟨hk', rfl⟩ := List.getElem?_eq_some_iff.mp hr
    exact List.pairwise_iff_getElem.mp hwindow.sorted k (k + 1) hk hk' (Nat.lt_succ_self k)
  -- what lies between them is in the range of both, and newer than a row that is shown
  have hbetween : ∀ x ∈ db.historyWindow deviceId rangeStart' rangeEnd',
      ¬ (Precedes q x ∧ Precedes x r) := by
    rintro x hx ⟨hqx, hxr⟩
    obtain ⟨htelemetry, hdevice, -⟩ := mem_matching.mp (hwindow'.mem hx)
    obtain ⟨-, -, hstart, -⟩ := mem_matching.mp (hwindow.mem hqmem)
    obtain ⟨-, -, -, hend⟩ := mem_matching.mp (hwindow.mem hrmem)
    have hmatching : x ∈ db.matching deviceId rangeStart rangeEnd :=
      mem_matching.mpr ⟨htelemetry, hdevice, hstart.trans hqx.le, hxr.le.trans_lt hend⟩
    have hxmem := hwindow.mem_of_precedes hqmem hmatching hqx
    exact between_of_adjacent precedes_trans precedes_irrefl hwindow.sorted hq hr hxmem ⟨hqx, hxr⟩
  obtain ⟨i, hi⟩ := List.getElem?_of_mem hq'
  have hadjacent : j = i + 1 :=
    adjacent_of_sorted precedes_trans precedes_irrefl hwindow'.sorted hi hr' hqr hbetween
  rw [hadjacent, Nat.add_sub_cancel]
  exact ⟨Nat.succ_ne_zero i, hi⟩

/-! ## Histories -/

/-- What a history shows of the rows in its range, and how it is drawn. -/
structure Exact (rows window : List Telemetry) (history : DeviceHistory) : Prop where
  newest : Window rows window
  truncated : history.truncated = true ↔ maxPoints < rows.length
  points : List.Forall₂ Shows window history.points
  gaps : ∀ k row point, window[k]? = some row → history.points[k]? = some point →
    (point.gapBefore = true ↔ k = 0 ∨ ∃ previous, window[k - 1]? = some previous ∧
      Breaks previous row)
  concatenate : (Frontend.lineSegments history.points).flatten = history.points
  segments : ∃ runs : List (List Telemetry), runs.flatten = window ∧ (∀ run ∈ runs, SoundRun run) ∧
    List.Forall₂ (List.Forall₂ Shows) runs (Frontend.lineSegments history.points)

section Histories

variable {db : Db} {deviceId : Identifier} {rangeStart rangeEnd : Time} {history : DeviceHistory}

theorem readDeviceHistory_eq_ok :
    readDeviceHistory db deviceId (some rangeStart) (some rangeEnd) = .ok history ↔
      (ValidRange rangeStart rangeEnd ∧ db.hasDevice deviceId = true) ∧ history = {
        deviceId
        unit := .celsius
        rangeStart
        rangeEnd
        truncated := decide (maxPoints <
          (db.readHistoryRows deviceId rangeStart rangeEnd (maxPoints + 1)).length)
        points := historyPoints none (db.historyWindow deviceId rangeStart rangeEnd) } := by
  by_cases hvalid : ValidRange rangeStart rangeEnd
  · -- The two guards of the range are the negation of what is valid.
    have hrange : ¬ (rangeStart ≥ rangeEnd ∨ rangeEnd - rangeStart > maxRange) := by
      rw [not_or, not_le, not_lt]
      exact hvalid
    cases hdevice : db.hasDevice deviceId with
    | false => simp [readDeviceHistory, hrange, hdevice]
    | true =>
      simp only [readDeviceHistory, if_neg hrange, hdevice, Bool.true_eq_false, if_false,
        Except.ok.injEq, hvalid, and_self, true_and]
      exact eq_comm
  · have hrange : rangeStart ≥ rangeEnd ∨ rangeEnd - rangeStart > maxRange := by
      rw [ValidRange, not_and_or, not_lt, not_le] at hvalid
      exact hvalid
    simp [readDeviceHistory, hrange, hvalid]

theorem exact_of_read
    (h : readDeviceHistory db deviceId (some rangeStart) (some rangeEnd) = .ok history) :
    Exact (db.matching deviceId rangeStart rangeEnd)
      (db.historyWindow deviceId rangeStart rangeEnd) history := by
  obtain ⟨-, rfl⟩ := readDeviceHistory_eq_ok.mp h
  have hwindow := db.historyWindow_window deviceId rangeStart rangeEnd
  refine ⟨hwindow, ?_, ?_, fun k row point hrow hpoint => gapBefore_iff hrow hpoint,
    lineSegments_flatten _, sound_runs hwindow.sorted⟩
  · rw [decide_eq_true_eq]
    exact db.readHistoryRows_length deviceId rangeStart rangeEnd
  · obtain ⟨runs, hflatten, -, hshows⟩ := sound_runs hwindow.sorted
    have hflat := List.rel_flatten hshows
    rwa [hflatten, lineSegments_flatten] at hflat

/-- A valid range of a device has a history; each history is exact, and its flags do not depend
on the range that is read. -/
theorem history_exact (db : Db) (deviceId : Identifier) (rangeStart rangeEnd : Time) :
    (ValidRange rangeStart rangeEnd → db.hasDevice deviceId = true →
      ∃ history, readDeviceHistory db deviceId (some rangeStart) (some rangeEnd) = .ok history) ∧
    ∀ history, readDeviceHistory db deviceId (some rangeStart) (some rangeEnd) = .ok history →
      Exact (db.matching deviceId rangeStart rangeEnd)
        (db.historyWindow deviceId rangeStart rangeEnd) history ∧
      ∀ rangeStart' rangeEnd' history',
        readDeviceHistory db deviceId (some rangeStart') (some rangeEnd') = .ok history' →
        ∀ (k j : Nat) (q r : Telemetry),
          (db.historyWindow deviceId rangeStart rangeEnd)[k]? = some q →
          (db.historyWindow deviceId rangeStart rangeEnd)[k + 1]? = some r →
          q ∈ db.historyWindow deviceId rangeStart' rangeEnd' →
          (db.historyWindow deviceId rangeStart' rangeEnd')[j]? = some r →
          ∃ point point', history.points[k + 1]? = some point ∧
            history'.points[j]? = some point' ∧ point.gapBefore = point'.gapBefore := by
  refine ⟨fun hvalid hdevice => ⟨_, readDeviceHistory_eq_ok.mpr ⟨⟨hvalid, hdevice⟩, rfl⟩⟩, ?_⟩
  intro history hread
  refine ⟨exact_of_read hread, ?_⟩
  intro rangeStart' rangeEnd' history' hread' k j q r hq hr hq' hr'
  -- neighbours in one window are neighbours in any other that has both
  obtain ⟨hj, hqj⟩ := adjacent_in_windows hq hr hq' hr'
  obtain ⟨-, rfl⟩ := readDeviceHistory_eq_ok.mp hread
  obtain ⟨-, rfl⟩ := readDeviceHistory_eq_ok.mp hread'
  simp only [historyPoints_eq, List.getElem?_map, withPrevious_getElem?, hr, hr', Option.map_some]
  refine ⟨_, _, rfl, rfl, ?_⟩
  rw [if_neg (Nat.succ_ne_zero k), if_neg hj, Nat.add_sub_cancel, hq, hqj]

end Histories

end EquipmentMonitoring.Backend
