import EquipmentMonitoring.Foundations.Json.Value

/-!
# Tracking Object Keys from Parse Events

An event-driven reader can refuse duplicate keys and deep nesting while it reads: it keeps, for
every depth, the keys seen in the object open there. An object that starts clears the entry one
level below itself.

## Key Results

- `track_ok_of_unique`: unique keys within the depth limit pass, and entries of enclosing objects
  are kept
- `track_ok_iff`: nothing else passes
-/

namespace EquipmentMonitoring.Json

/-! ## The Tracker -/

inductive KeyFault where
  | tooDeep
  | duplicate
  | outOfRange
deriving DecidableEq

/-- The keys seen so far, by depth. -/
abbrev SeenKeys := List (List Bytes)

/-- Clear the entry at `child`, growing the table to hold it. -/
def openObject (keys : SeenKeys) (child : Nat) : SeenKeys :=
  (if keys.length ≤ child then keys ++ List.replicate (child + 1 - keys.length) []
    else keys).set child []

def trackKey (keys : SeenKeys) (depth : Nat) (name : Bytes) : Except KeyFault SeenKeys :=
  match keys[depth]? with
  | none => .error .outOfRange
  | some seen =>
    if seen.contains name then .error .duplicate else .ok (keys.set depth (name :: seen))

/-- One report of the reader. -/
def track (limit : Nat) (keys : SeenKeys) (report : ParseEvent) : Except KeyFault SeenKeys :=
  if limit < report.depth then .error .tooDeep
  else
    match report.kind with
    | .objectStart => .ok (openObject keys (report.depth + 1))
    | .key name => trackKey keys report.depth name
    | _ => .ok keys

/-- All reports in turn. -/
def trackAll (limit : Nat) (keys : SeenKeys) (reports : List ParseEvent) :
    Except KeyFault SeenKeys :=
  reports.foldlM (track limit) keys

/-! ## Single Reports -/

variable {limit : Nat} {keys : SeenKeys}

@[simp] theorem trackAll_nil : trackAll limit keys [] = .ok keys := rfl

theorem trackAll_cons_ok {e : ParseEvent} {es : List ParseEvent} {keys' : SeenKeys} :
    trackAll limit keys (e :: es) = .ok keys' ↔
      ∃ next, track limit keys e = .ok next ∧ trackAll limit next es = .ok keys' := by
  simp only [trackAll, List.foldlM_cons]
  cases h : track limit keys e with
  | error f => simp [bind, Except.bind]
  | ok next => simp [bind, Except.bind]

theorem trackAll_append_ok {es fs : List ParseEvent} {keys' : SeenKeys} :
    trackAll limit keys (es ++ fs) = .ok keys' ↔
      ∃ next, trackAll limit keys es = .ok next ∧ trackAll limit next fs = .ok keys' := by
  induction es generalizing keys with
  | nil => simp
  | cons e es ih =>
    simp only [List.cons_append, trackAll_cons_ok, ih]
    constructor
    · rintro ⟨a, ha, b, hb, hc⟩
      exact ⟨b, ⟨a, ha, hb⟩, hc⟩
    · rintro ⟨b, ⟨a, ha, hb⟩, hc⟩
      exact ⟨a, ha, b, hb, hc⟩

/-- Every entry up to `depth` is kept. -/
def KeepsBelow (depth : Nat) (keys keys' : SeenKeys) : Prop :=
  ∀ i ≤ depth, ∀ seen, keys[i]? = some seen → keys'[i]? = some seen

theorem KeepsBelow.refl (depth : Nat) (keys : SeenKeys) : KeepsBelow depth keys keys :=
  fun _ _ _ h => h

theorem KeepsBelow.trans {depth : Nat} {a b c : SeenKeys} (hab : KeepsBelow depth a b)
    (hbc : KeepsBelow depth b c) : KeepsBelow depth a c :=
  fun i hi seen h => hbc i hi seen (hab i hi seen h)

theorem KeepsBelow.mono {depth depth' : Nat} (hle : depth' ≤ depth) {a b : SeenKeys}
    (h : KeepsBelow depth a b) : KeepsBelow depth' a b :=
  fun i hi => h i (Nat.le_trans hi hle)

theorem openObject_keeps (keys : SeenKeys) (depth : Nat) :
    KeepsBelow depth keys (openObject keys (depth + 1)) := by
  intro i hi seen h
  have hlt : i < keys.length := (List.getElem?_eq_some_iff.mp h).1
  unfold openObject
  rw [List.getElem?_set_ne (by omega)]
  split
  · rw [List.getElem?_append_left hlt, h]
  · exact h

theorem openObject_entry (keys : SeenKeys) (child : Nat) :
    (openObject keys child)[child]? = some [] := by
  unfold openObject
  split
  · exact List.getElem?_set_self (by simp; omega)
  · exact List.getElem?_set_self (by omega)

theorem trackKey_ok {depth : Nat} {name : Bytes} {seen : List Bytes} {keys' : SeenKeys}
    (hseen : keys[depth]? = some seen) :
    trackKey keys depth name = .ok keys' ↔
      name ∉ seen ∧ keys' = keys.set depth (name :: seen) := by
  simp only [trackKey, hseen]
  by_cases hmem : name ∈ seen
  · simp [hmem]
  · simp [hmem, eq_comm]

theorem set_keeps {depth : Nat} (keys : SeenKeys) (seen : List Bytes) :
    KeepsBelow depth keys (keys.set (depth + 1) seen) := by
  intro i hi s h
  rw [List.getElem?_set_ne (by omega), h]

/-! ## Whole Trees -/

/-- No report lies deeper than the limit. -/
def Within (limit : Nat) (es : List ParseEvent) : Prop := ∀ e ∈ es, e.depth ≤ limit

theorem Within.mono {limit limit' : Nat} {es : List ParseEvent} (h : Within limit es)
    (hle : limit ≤ limit') : Within limit' es :=
  fun e he => Nat.le_trans (h e he) hle

theorem within_cons {limit : Nat} {e : ParseEvent} {es : List ParseEvent} :
    Within limit (e :: es) ↔ e.depth ≤ limit ∧ Within limit es :=
  List.forall_mem_cons

theorem within_append {limit : Nat} {es fs : List ParseEvent} :
    Within limit (es ++ fs) ↔ Within limit es ∧ Within limit fs :=
  List.forall_mem_append

theorem within_elements {depth : Nat} {es : List (Element Tree)}
    (hes : ∀ e ∈ es, Within (depth + e.value.height) (e.value.events depth)) :
    Within (depth + elementsHeight es) (elementEvents depth es) := by
  induction es with
  | nil => simp [Within, elementEvents]
  | cons e rest ih =>
    rw [List.forall_mem_cons] at hes
    simp only [elementEvents, elementsHeight, within_append]
    exact ⟨hes.1.mono (by omega), (ih hes.2).mono (by omega)⟩

theorem within_members {depth : Nat} {ms : List (Member Tree)}
    (hms : ∀ m ∈ ms, Within (depth + m.value.height) (m.value.events depth)) :
    Within (depth + membersHeight ms) (memberEvents depth ms) := by
  induction ms with
  | nil => simp [Within, memberEvents]
  | cons m rest ih =>
    rw [List.forall_mem_cons] at hms
    simp only [memberEvents, membersHeight, List.cons_append, within_cons, within_append]
    exact ⟨by omega, hms.1.mono (by omega), (ih hms.2).mono (by omega)⟩

/-- Reports lie no deeper than the tree is high. -/
theorem within_height (t : Tree) (depth : Nat) : Within (depth + t.height) (t.events depth) := by
  have hscalar {depth : Nat} {kind : EventKind} (n : Nat) : Within (depth + n) [⟨depth, kind⟩] := by
    simp [Within]
  induction t generalizing depth with
  | array first rest ih =>
    -- The elements are one level deeper than the brackets around them.
    have h : Within (depth + 1 + elementsHeight (first :: rest))
        (elementEvents (depth + 1) (first :: rest)) :=
      within_elements fun e he => ih e he (depth + 1)
    have hheight : (Tree.array first rest).height = elementsHeight (first :: rest) + 1 := rfl
    rw [Tree.events_array, hheight, within_cons, within_append]
    exact ⟨by simp, h.mono (by omega), hscalar _⟩
  | object first rest ih =>
    have h : Within (depth + 1 + membersHeight (first :: rest))
        (memberEvents (depth + 1) (first :: rest)) :=
      within_members fun m hm => ih m hm (depth + 1)
    have hheight : (Tree.object first rest).height = membersHeight (first :: rest) + 1 := rfl
    rw [Tree.events_object, hheight, within_cons, within_append]
    exact ⟨by simp, h.mono (by omega), hscalar _⟩
  | emptyArray inner | emptyObject inner => simp [Within, Tree.events]
  | null | bool b | number n | string l => exact hscalar 0

theorem within_of_trackAll {es : List ParseEvent} {keys' : SeenKeys}
    (h : trackAll limit keys es = .ok keys') : Within limit es := by
  induction es generalizing keys with
  | nil => simp [Within]
  | cons e rest ih =>
    obtain ⟨next, hnext, hrest⟩ := trackAll_cons_ok.mp h
    refine List.forall_mem_cons.mpr ⟨?_, ih hrest⟩
    by_contra hdeep
    simp [track, Nat.lt_of_not_le hdeep] at hnext

/-- Reports that neither open an object nor carry a key change nothing. -/
theorem track_neutral {depth : Nat} {kind : EventKind} (hdepth : depth ≤ limit)
    (hkind : kind = .value ∨ kind = .arrayStart ∨ kind = .arrayEnd ∨ kind = .objectEnd) :
    track limit keys ⟨depth, kind⟩ = .ok keys := by
  rcases hkind with rfl | rfl | rfl | rfl <;> simp [track, Nat.not_lt.mpr hdepth]

theorem track_objectStart {depth : Nat} (hdepth : depth ≤ limit) :
    track limit keys ⟨depth, .objectStart⟩ = .ok (openObject keys (depth + 1)) := by
  simp [track, Nat.not_lt.mpr hdepth]

/-- The tree passes at `depth` if it may, keeping the entries up to there. -/
def Passes (limit depth : Nat) (t : Tree) : Prop :=
  ∀ keys, Within limit (t.events depth) → t.uniqueKeys = true →
    ∃ keys', trackAll limit keys (t.events depth) = .ok keys' ∧ KeepsBelow depth keys keys'

theorem elements_pass {depth : Nat} {es : List (Element Tree)}
    (hes : ∀ e ∈ es, Passes limit depth e.value) :
    ∀ keys, Within limit (elementEvents depth es) → elementsUnique es = true →
      ∃ keys', trackAll limit keys (elementEvents depth es) = .ok keys' ∧
        KeepsBelow depth keys keys' := by
  induction es with
  | nil => exact fun keys _ _ => ⟨keys, rfl, KeepsBelow.refl depth keys⟩
  | cons e rest ih =>
    intro keys hwithin hunique
    simp only [elementEvents, Within, List.forall_mem_append] at hwithin
    simp only [elementsUnique, Bool.and_eq_true] at hunique
    obtain ⟨k₁, hrun₁, hkeep₁⟩ := hes e (List.mem_cons_self ..) keys hwithin.1 hunique.1
    -- an element leaves the open objects above it as they were
    obtain ⟨k₂, hrun₂, hkeep₂⟩ := ih (fun x hx => hes x (List.mem_cons_of_mem _ hx)) k₁
      hwithin.2 hunique.2
    exact ⟨k₂, trackAll_append_ok.mpr ⟨k₁, hrun₁, hrun₂⟩, hkeep₁.trans hkeep₂⟩

theorem members_pass {depth : Nat} {ms : List (Member Tree)}
    (hms : ∀ m ∈ ms, Passes limit (depth + 1) m.value) :
    ∀ keys seen, keys[depth + 1]? = some seen → Within limit (memberEvents (depth + 1) ms) →
      (ms.map Member.name).Nodup → (∀ m ∈ ms, m.name ∉ seen) → membersUnique ms = true →
      ∃ keys', trackAll limit keys (memberEvents (depth + 1) ms) = .ok keys' ∧
        KeepsBelow depth keys keys' := by
  induction ms with
  | nil => exact fun keys _ _ _ _ _ _ => ⟨keys, rfl, KeepsBelow.refl depth keys⟩
  | cons m rest ih =>
    intro keys seen hseen hwithin hnodup hfresh hunique
    simp only [memberEvents, Within, List.cons_append, List.forall_mem_cons,
      List.forall_mem_append] at hwithin
    simp only [List.map_cons, List.nodup_cons, List.mem_map, not_exists, not_and] at hnodup
    simp only [membersUnique, Bool.and_eq_true] at hunique
    -- the key is entered, the value keeps the entry, the others find it
    have hkey : track limit keys ⟨depth + 1, .key m.name⟩ =
        .ok (keys.set (depth + 1) (m.name :: seen)) := by
      have hdepth : ¬limit < depth + 1 := Nat.not_lt.mpr hwithin.1
      simp only [track, if_neg hdepth]
      exact (trackKey_ok hseen).mpr ⟨hfresh m (List.mem_cons_self ..), rfl⟩
    have hentry : (keys.set (depth + 1) (m.name :: seen))[depth + 1]? = some (m.name :: seen) :=
      List.getElem?_set_self (List.getElem?_eq_some_iff.mp hseen).1
    obtain ⟨k₁, hrun₁, hkeep₁⟩ := hms m (List.mem_cons_self ..) _ hwithin.2.1 hunique.1
    obtain ⟨k₂, hrun₂, hkeep₂⟩ := ih (fun x hx => hms x (List.mem_cons_of_mem _ hx)) k₁ _
      (hkeep₁ _ (Nat.le_refl _) _ hentry) hwithin.2.2 hnodup.2
      (fun x hx => by
        simp only [List.mem_cons, not_or]
        exact ⟨hnodup.1 x hx, hfresh x (List.mem_cons_of_mem _ hx)⟩) hunique.2
    refine ⟨k₂, ?_, ((set_keeps keys _).trans (hkeep₁.mono (by omega))).trans hkeep₂⟩
    exact trackAll_cons_ok.mpr ⟨_, hkey, trackAll_append_ok.mpr ⟨k₁, hrun₁, hrun₂⟩⟩

theorem scalar_passes {t : Tree} {depth : Nat} (ht : t.events depth = [⟨depth, .value⟩]) :
    Passes limit depth t := by
  intro keys hwithin _
  rw [ht] at hwithin ⊢
  have hdepth : depth ≤ limit := hwithin _ (List.mem_singleton_self _)
  refine ⟨keys, trackAll_cons_ok.mpr ⟨keys, track_neutral hdepth (by simp), rfl⟩, ?_⟩
  exact KeepsBelow.refl depth keys

/-- A tree with unique keys, nowhere deeper than the limit, passes. -/
theorem track_ok_of_unique (t : Tree) (depth : Nat) : Passes limit depth t := by
  induction t generalizing depth with
  | null => exact scalar_passes rfl
  | bool b => exact scalar_passes rfl
  | number n => exact scalar_passes rfl
  | string l => exact scalar_passes rfl
  | emptyArray inner =>
    intro keys hwithin _
    have hdepth : depth ≤ limit := hwithin _ (List.mem_cons_self ..)
    refine ⟨keys, ?_, KeepsBelow.refl depth keys⟩
    exact trackAll_cons_ok.mpr ⟨keys, track_neutral hdepth (by simp),
      trackAll_cons_ok.mpr ⟨keys, track_neutral hdepth (by simp), rfl⟩⟩
  | array first rest ih =>
    intro keys hwithin hunique
    rw [Tree.events_array] at hwithin ⊢
    have hdepth : depth ≤ limit := hwithin _ (List.mem_cons_self ..)
    simp only [Within, List.forall_mem_cons, List.forall_mem_append] at hwithin
    obtain ⟨keys', hrun, hkeep⟩ :=
      elements_pass (fun e he => ih e he (depth + 1)) keys hwithin.2.1 hunique
    refine ⟨keys', ?_, hkeep.mono (by omega)⟩
    exact trackAll_cons_ok.mpr ⟨keys, track_neutral hdepth (by simp), trackAll_append_ok.mpr
      ⟨keys', hrun, trackAll_cons_ok.mpr ⟨keys', track_neutral hdepth (by simp), rfl⟩⟩⟩
  | emptyObject inner =>
    intro keys hwithin _
    have hdepth : depth ≤ limit := hwithin _ (List.mem_cons_self ..)
    refine ⟨openObject keys (depth + 1), ?_, openObject_keeps keys depth⟩
    exact trackAll_cons_ok.mpr ⟨_, track_objectStart hdepth,
      trackAll_cons_ok.mpr ⟨_, track_neutral hdepth (by simp), rfl⟩⟩
  | object first rest ih =>
    intro keys hwithin hunique
    rw [Tree.events_object] at hwithin ⊢
    rw [Tree.uniqueKeys_object, Bool.and_eq_true, decide_eq_true_eq] at hunique
    have hdepth : depth ≤ limit := hwithin _ (List.mem_cons_self ..)
    simp only [Within, List.forall_mem_cons, List.forall_mem_append] at hwithin
    -- the opened object starts with no key, and its distinct keys are added one by one
    obtain ⟨keys', hrun, hkeep⟩ := members_pass (fun m hm => ih m hm (depth + 1)) _ []
      (openObject_entry keys (depth + 1)) hwithin.2.1 hunique.1 (by simp) hunique.2
    refine ⟨keys', ?_, (openObject_keeps keys depth).trans hkeep⟩
    exact trackAll_cons_ok.mpr ⟨_, track_objectStart hdepth, trackAll_append_ok.mpr
      ⟨keys', hrun, trackAll_cons_ok.mpr ⟨keys', track_neutral hdepth (by simp), rfl⟩⟩⟩

/-! ## Nothing Else Passes -/

theorem elements_unique_of_track {depth : Nat} {es : List (Element Tree)}
    (hes : ∀ e ∈ es, ∀ keys keys', trackAll limit keys (e.value.events depth) = .ok keys' →
      e.value.uniqueKeys = true) :
    ∀ keys keys', trackAll limit keys (elementEvents depth es) = .ok keys' →
      elementsUnique es = true := by
  induction es with
  | nil => exact fun _ _ _ => rfl
  | cons e rest ih =>
    intro keys keys' h
    obtain ⟨k₁, hrun₁, hrun₂⟩ := trackAll_append_ok.mp h
    simp only [elementsUnique, Bool.and_eq_true]
    exact ⟨hes e (List.mem_cons_self ..) _ _ hrun₁,
      ih (fun x hx => hes x (List.mem_cons_of_mem _ hx)) _ _ hrun₂⟩

theorem members_unique_of_track {depth : Nat} {ms : List (Member Tree)}
    (hms : ∀ m ∈ ms, ∀ keys keys', trackAll limit keys (m.value.events (depth + 1)) = .ok keys' →
      m.value.uniqueKeys = true) :
    ∀ keys keys' seen, keys[depth + 1]? = some seen →
      trackAll limit keys (memberEvents (depth + 1) ms) = .ok keys' →
      (ms.map Member.name).Nodup ∧ (∀ m ∈ ms, m.name ∉ seen) ∧ membersUnique ms = true := by
  induction ms with
  | nil => simp [membersUnique]
  | cons m rest ih =>
    intro keys keys' seen hseen h
    simp only [memberEvents, List.cons_append] at h
    obtain ⟨k₁, hkey, h⟩ := trackAll_cons_ok.mp h
    obtain ⟨k₂, hvalue, hrest⟩ := trackAll_append_ok.mp h
    have hdepth : ¬limit < depth + 1 := by
      intro hdeep
      simp [track, hdeep] at hkey
    simp only [track, if_neg hdepth] at hkey
    obtain ⟨hfresh, rfl⟩ := (trackKey_ok hseen).mp hkey
    have hunique := hms m (List.mem_cons_self ..) _ _ hvalue
    -- the value passed, so it kept the entry of this object
    obtain ⟨k₂', hvalue', hkeep⟩ :=
      track_ok_of_unique m.value (depth + 1) _ (within_of_trackAll hvalue) hunique
    obtain rfl : k₂ = k₂' := Except.ok.inj (hvalue.symm.trans hvalue')
    have hentry : k₂[depth + 1]? = some (m.name :: seen) := hkeep _ (Nat.le_refl _) _
      (List.getElem?_set_self (List.getElem?_eq_some_iff.mp hseen).1)
    obtain ⟨hnodup, hothers, hrestUnique⟩ :=
      ih (fun x hx => hms x (List.mem_cons_of_mem _ hx)) _ _ _ hentry hrest
    simp only [List.mem_cons, not_or] at hothers
    refine ⟨List.nodup_cons.mpr ⟨?_, hnodup⟩, List.forall_mem_cons.mpr ⟨hfresh, ?_⟩, ?_⟩
    · intro hmem
      obtain ⟨x, hx, hname⟩ := List.mem_map.mp hmem
      exact (hothers x hx).1 hname
    · exact fun x hx => (hothers x hx).2
    · simp [membersUnique, hunique, hrestUnique]

theorem unique_of_track_ok (t : Tree) : ∀ depth keys keys',
    trackAll limit keys (t.events depth) = .ok keys' → t.uniqueKeys = true := by
  induction t with
  | null => exact fun _ _ _ _ => rfl
  | bool b => exact fun _ _ _ _ => rfl
  | number n => exact fun _ _ _ _ => rfl
  | string l => exact fun _ _ _ _ => rfl
  | emptyArray inner => exact fun _ _ _ _ => rfl
  | emptyObject inner => exact fun _ _ _ _ => rfl
  | array first rest ih =>
    intro depth keys keys' h
    rw [Tree.events_array] at h
    obtain ⟨_, _, h⟩ := trackAll_cons_ok.mp h
    obtain ⟨_, hrun, _⟩ := trackAll_append_ok.mp h
    exact elements_unique_of_track (fun e he => ih e he (depth + 1)) _ _ hrun
  | object first rest ih =>
    intro depth keys keys' h
    have hdepth : depth ≤ limit := within_of_trackAll h ⟨depth, .objectStart⟩ (by simp [Tree.events])
    rw [Tree.events_object] at h
    obtain ⟨_, hstart, h⟩ := trackAll_cons_ok.mp h
    obtain ⟨_, hrun, _⟩ := trackAll_append_ok.mp h
    obtain rfl := Except.ok.inj ((track_objectStart hdepth).symm.trans hstart)
    -- the object was opened with no names, so every name seen in it is its own
    obtain ⟨hnodup, -, hunique⟩ := members_unique_of_track (fun m hm => ih m hm (depth + 1)) _ _ _
      (openObject_entry keys (depth + 1)) hrun
    rw [Tree.uniqueKeys_object, Bool.and_eq_true, decide_eq_true_eq]
    exact ⟨hnodup, hunique⟩

/-- A tree passes the tracker exactly when its keys are unique and it is nowhere too deep. -/
theorem track_ok_iff {t : Tree} {depth : Nat} :
    (∃ keys', trackAll limit keys (t.events depth) = .ok keys') ↔
      Within limit (t.events depth) ∧ t.uniqueKeys = true := by
  constructor
  · rintro ⟨keys', h⟩
    exact ⟨within_of_trackAll h, unique_of_track_ok t _ _ _ h⟩
  · rintro ⟨hwithin, hunique⟩
    obtain ⟨keys', h, -⟩ := track_ok_of_unique t depth keys hwithin hunique
    exact ⟨keys', h⟩

end EquipmentMonitoring.Json
