import EquipmentMonitoring.Foundations.Json.KeyTracking
import EquipmentMonitoring.Foundations.Json.Reader

/-!
# What a Reader's Reports Say

Two readings of the reports that the key tracker consumes. On a whole tree, its depth limit and its
duplicate check are facts about the values inside of the tree. On any text at all, also one that
the reader gives up on, a key is only reported inside of an object that was reported before, so the
tracker's table has an entry for it.

## Key Results

- `within_iff`: a depth limit in terms of the values inside
- `uniqueKeys_iff`: key uniqueness in terms of the objects inside
- `readDocument_announced`: keys are reported inside of objects
- `trackAll_ne_outOfRange`: so the tracker finds its entries
-/

namespace EquipmentMonitoring.Json

/-! ## Values Inside of Values -/

/-- `s` is inside of `t`, with `depth` containers of `t` around it. -/
inductive Inside : Nat → Tree → Tree → Prop
  | self (t : Tree) : Inside 0 t t
  | element {depth : Nat} {s : Tree} {first e : Element Tree} {rest : List (Element Tree)}
      (he : e ∈ first :: rest) (h : Inside depth s e.value) :
      Inside (depth + 1) s (.array first rest)
  | member {depth : Nat} {s : Tree} {first m : Member Tree} {rest : List (Member Tree)}
      (hm : m ∈ first :: rest) (h : Inside depth s m.value) :
      Inside (depth + 1) s (.object first rest)

/-- No value inside is deeper than `limit`. -/
def DepthAtMost (limit : Nat) (t : Tree) : Prop := ∀ depth s, Inside depth s t → depth ≤ limit

/-- No object inside has two members of one decoded key. -/
def DistinctKeys (t : Tree) : Prop :=
  ∀ depth first rest, Inside depth (.object first rest) t → ((first :: rest).map Member.name).Nodup

theorem within_elementEvents {limit depth : Nat} {es : List (Element Tree)} :
    Within limit (elementEvents depth es) ↔ ∀ e ∈ es, Within limit (e.value.events depth) := by
  induction es with
  | nil => simp [elementEvents, Within]
  | cons e rest ih => rw [elementEvents, within_append, ih, List.forall_mem_cons]

theorem within_memberEvents {limit depth : Nat} {ms : List (Member Tree)} :
    Within limit (memberEvents depth ms) ↔
      ∀ m ∈ ms, depth ≤ limit ∧ Within limit (m.value.events depth) := by
  induction ms with
  | nil => simp [memberEvents, Within]
  | cons m rest ih =>
    rw [memberEvents, List.cons_append, within_cons, within_append, ih, List.forall_mem_cons,
      and_assoc]

/-- The first report on a value lies at its depth. -/
theorem depth_le_of_within {limit depth : Nat} {t : Tree} (h : Within limit (t.events depth)) :
    depth ≤ limit := by
  cases t <;> exact h _ (List.mem_cons_self ..)

/-- No report lies deeper than the limit exactly when no value does. -/
theorem within_iff {limit depth : Nat} {t : Tree} :
    Within limit (t.events depth) ↔ ∀ d s, Inside d s t → depth + d ≤ limit := by
  constructor
  · intro hwithin d s h
    -- Induction on the path to the inner value, one level deeper at each step.
    induction h generalizing depth with
    | self t => exact depth_le_of_within hwithin
    | @element d s first e rest he _ ih =>
      rw [Tree.events_array, within_cons, within_append, within_elementEvents] at hwithin
      have hinner := ih (hwithin.2.1 e he)
      omega
    | @member d s first m rest hm _ ih =>
      rw [Tree.events_object, within_cons, within_append, within_memberEvents] at hwithin
      have hinner := ih (hwithin.2.1 m hm).2
      omega
  · intro hall
    have hdepth : depth ≤ limit := hall 0 t (.self t)
    -- Conversely on the tree: each child is inside, and so is everything inside a child.
    induction t generalizing depth with
    | array first rest ih =>
      have hinner (e : Element Tree) (he : e ∈ first :: rest) :
          ∀ d s, Inside d s e.value → depth + 1 + d ≤ limit := by
        intro d s h
        have hle := hall _ s (.element he h)
        omega
      rw [Tree.events_array, within_cons, within_append, within_elementEvents, within_cons]
      exact ⟨hdepth, fun e he => ih e he (hinner e he) (hinner e he 0 _ (.self _)), hdepth, by
        simp [Within]⟩
    | object first rest ih =>
      have hinner (m : Member Tree) (hm : m ∈ first :: rest) :
          ∀ d s, Inside d s m.value → depth + 1 + d ≤ limit := by
        intro d s h
        have hle := hall _ s (.member hm h)
        omega
      rw [Tree.events_object, within_cons, within_append, within_memberEvents, within_cons]
      exact ⟨hdepth, fun m hm => ⟨hinner m hm 0 _ (.self _),
        ih m hm (hinner m hm) (hinner m hm 0 _ (.self _))⟩, hdepth, by simp [Within]⟩
    | _ => simp [Tree.events, Within, hdepth]

theorem depthAtMost_iff {limit : Nat} {t : Tree} :
    Within limit (t.events 0) ↔ DepthAtMost limit t := by
  simp only [within_iff, DepthAtMost, Nat.zero_add]

/-- Keys are unique exactly when each object inside has distinct ones. -/
theorem uniqueKeys_iff {t : Tree} : t.uniqueKeys = true ↔ DistinctKeys t := by
  constructor
  · intro hunique depth first rest h
    generalize hs : Tree.object first rest = s at h
    induction h with
    | self t =>
      rw [← hs, Tree.uniqueKeys_object, Bool.and_eq_true, decide_eq_true_iff] at hunique
      exact hunique.1
    | @element d s first e rest he _ ih =>
      rw [Tree.uniqueKeys_array, elementsUnique_eq_all, List.all_eq_true] at hunique
      exact ih (hunique e he) hs
    | @member d s first m rest hm _ ih =>
      rw [Tree.uniqueKeys_object, Bool.and_eq_true, membersUnique_eq_all, List.all_eq_true]
        at hunique
      exact ih (hunique.2 m hm) hs
  · intro hdistinct
    induction t with
    | array first rest ih =>
      rw [Tree.uniqueKeys_array, elementsUnique_eq_all, List.all_eq_true]
      exact fun e he => ih e he fun d f r h => hdistinct _ f r (.element he h)
    | object first rest ih =>
      rw [Tree.uniqueKeys_object, Bool.and_eq_true, membersUnique_eq_all, List.all_eq_true,
        decide_eq_true_iff]
      exact ⟨hdistinct 0 first rest (.self _), fun m hm => ih m hm fun d f r h =>
        hdistinct _ f r (.member hm h)⟩
    | _ => rfl

/-! ## Announced Keys -/

/-- Every key is reported one level below an object start among these reports, or at one of the
levels that were opened before. -/
def Announced : List Nat → List ParseEvent → Prop
  | _, [] => True
  | opened, e :: es =>
    match e.kind with
    | .key _ => e.depth ∈ opened ∧ Announced opened es
    | .objectStart => Announced ((e.depth + 1) :: opened) es
    | _ => Announced opened es

theorem Announced.mono {opened opened' : List Nat} {es : List ParseEvent} (h : Announced opened es)
    (hsub : opened ⊆ opened') : Announced opened' es := by
  induction es generalizing opened opened' with
  | nil => trivial
  | cons e es ih =>
    obtain ⟨depth, kind⟩ := e
    cases kind with
    | key name => exact ⟨hsub h.1, ih h.2 hsub⟩
    | objectStart => exact ih h (List.cons_subset_cons _ hsub)
    | _ => exact ih h hsub

theorem Announced.append {opened : List Nat} {es fs : List ParseEvent} (hes : Announced opened es)
    (hfs : Announced opened fs) : Announced opened (es ++ fs) := by
  induction es generalizing opened with
  | nil => exact hfs
  | cons e es ih =>
    obtain ⟨depth, kind⟩ := e
    cases kind with
    | key name => exact ⟨hes.1, ih hes.2 hfs⟩
    | objectStart => exact ih hes (hfs.mono (List.subset_cons_self _ _))
    | _ => exact ih hes hfs

section Reader

variable {α β : Type} {opened : List Nat}

theorem announced_bind {x : Sax α} {f : α → Sax β} (hx : Announced opened x.reports)
    (hf : ∀ a, Announced opened (f a).reports) : Announced opened (x >>= f).reports := by
  have hbind : (x >>= f) = x.andThen f := rfl
  rw [hbind, Sax.andThen]
  split
  · exact hx
  · exact hx.append (hf _)

theorem announced_ofOption {o : Option α} {f : α → Sax β}
    (hf : ∀ a, Announced opened (f a).reports) : Announced opened (Sax.ofOption o >>= f).reports := by
  refine announced_bind ?_ hf
  cases o <;> trivial

/-- An object start opens the level below it for what follows. -/
theorem announced_objectStart {depth : Nat} {x : Sax α}
    (hx : Announced ((depth + 1) :: opened) x.reports) :
    Announced opened (Sax.emit depth .objectStart >>= fun _ => x).reports := hx

theorem announced_key {depth : Nat} {name : Bytes} {x : Sax α} (hdepth : depth ∈ opened)
    (hx : Announced opened x.reports) :
    Announced opened (Sax.emit depth (.key name) >>= fun _ => x).reports := ⟨hdepth, hx⟩

variable (d : Dialect)

/-- Whatever the text, the reader reports keys at levels that it has opened. -/
theorem reader_announced (fuel : Nat) : ∀ (depth : Nat) (s : Bytes) (opened : List Nat),
    Announced opened (readValue d fuel depth s).reports ∧
      (depth ∈ opened → Announced opened (readMembers d fuel depth s).reports) ∧
      Announced opened (readElements d fuel depth s).reports := by
  -- The three readers call each other with less fuel, so they are treated together.
  induction fuel with
  | zero =>
    intro depth s opened
    simp [readValue, readMembers, readElements, Sax.fail, Announced]
  | succ fuel ih =>
    intro depth s opened
    refine ⟨?_, fun hdepth => ?_, ?_⟩
    · cases s with
      | nil => simp [readValue, Sax.fail, Announced]
      | cons b rest =>
        rw [readValue]
        split
        · refine announced_objectStart ?_
          split
          · exact announced_bind trivial fun _ => trivial
          · refine announced_bind ((ih (depth + 1) rest _).2.1 (List.mem_cons_self ..)) fun p => ?_
            exact announced_bind trivial fun _ => trivial
        · split
          · refine announced_bind trivial fun _ => ?_
            split
            · exact announced_bind trivial fun _ => trivial
            · refine announced_bind (ih (depth + 1) rest opened).2.2 fun p => ?_
              exact announced_bind trivial fun _ => trivial
          · exact announced_ofOption fun p => announced_bind trivial fun _ => trivial
    · rw [readMembers]
      refine announced_ofOption fun s₁ => announced_ofOption fun p => announced_key hdepth ?_
      refine announced_ofOption fun s₃ => announced_bind (ih depth _ opened).1 fun q => ?_
      refine announced_ofOption fun r => ?_
      obtain ⟨more, s₅⟩ := r
      cases more with
      | false => trivial
      | true =>
        refine announced_bind ((ih depth s₅ opened).2.1 hdepth) fun _ => ?_
        trivial
    · rw [readElements]
      refine announced_bind (ih depth _ opened).1 fun q => announced_ofOption fun r => ?_
      obtain ⟨more, s₂⟩ := r
      cases more with
      | false => trivial
      | true =>
        refine announced_bind (ih depth s₂ opened).2.2 fun _ => ?_
        trivial

/-- Keys are reported inside of objects. -/
theorem readDocument_announced (s : Bytes) : Announced [] (readDocument d s).reports := by
  refine announced_bind (reader_announced d _ 0 _ []).1 fun p => ?_
  simp only
  split <;> trivial

end Reader

/-- The tracker's table reaches up to every level that was opened. -/
theorem trackAll_ne_outOfRange {limit : Nat} {keys : SeenKeys} {opened : List Nat}
    {es : List ParseEvent} (h : Announced opened es) (hkeys : ∀ n ∈ opened, n < keys.length) :
    trackAll limit keys es ≠ .error .outOfRange := by
  induction es generalizing keys opened with
  | nil => simp [trackAll, pure, Except.pure]
  | cons e es ih =>
    intro heq
    simp only [trackAll, List.foldlM_cons] at heq
    obtain ⟨depth, kind⟩ := e
    cases hstep : track limit keys ⟨depth, kind⟩ with
    | error fault =>
      -- an entry that a key needs is in the table
      rw [hstep] at heq
      obtain rfl : fault = .outOfRange := by simpa [bind, Except.bind] using heq
      unfold track at hstep
      split at hstep
      · simp at hstep
      · cases kind with
        | key name =>
          have hlt : depth < keys.length := hkeys _ h.1
          simp only [trackKey, List.getElem?_eq_getElem hlt] at hstep
          split at hstep <;> simp at hstep
        | _ => simp at hstep
    | ok next =>
      rw [hstep] at heq
      have heq : trackAll limit next es = .error .outOfRange := heq
      unfold track at hstep
      split at hstep
      · simp at hstep
      · cases kind with
        | key name =>
          have hlt : depth < keys.length := hkeys _ h.1
          simp only [trackKey, List.getElem?_eq_getElem hlt] at hstep
          split at hstep
          · simp at hstep
          · obtain rfl := Except.ok.inj hstep
            exact ih h.2 (fun n hn => by simpa using hkeys n hn) heq
        | objectStart =>
          obtain rfl := Except.ok.inj hstep
          refine ih h (fun n hn => ?_) heq
          have hgrown : keys.length ≤ (openObject keys (depth + 1)).length ∧
              depth + 1 < (openObject keys (depth + 1)).length := by
            unfold openObject
            split <;> simp <;> omega
          rcases List.mem_cons.mp hn with rfl | hn
          · exact hgrown.2
          · exact Nat.lt_of_lt_of_le (hkeys n hn) hgrown.1
        | _ =>
          obtain rfl := Except.ok.inj hstep
          exact ih h hkeys heq

end EquipmentMonitoring.Json
