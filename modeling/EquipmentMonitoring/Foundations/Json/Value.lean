import EquipmentMonitoring.Foundations.Json.Syntax

/-!
# JSON Values, Dialects and Parse Events

What a syntax tree means to its readers:

- `Tree.value`: the value it denotes, strings decoded, numbers kept as spelled
- `Dialect`: which number and string tokens a reader takes; `Tree.accepted` extends it to trees
- `Tree.uniqueKeys`: no object repeats a decoded key
- `Tree.height`: nesting depth
- `Tree.events`: what an event-driven reader reports, each event with the depth it occurs at
-/

namespace EquipmentMonitoring.Json

/-! ## Values -/

inductive Value where
  | null
  | bool (b : Bool)
  | number (n : Number)
  | string (text : Bytes)
  | array (items : List Value)
  | object (members : List (Bytes × Value))

/-- The members of an object; none for any other value. -/
def Value.members : Value → List (Bytes × Value)
  | .object ms => ms
  | _ => []

/-- The value of the first member called `key`. -/
def Value.get? (v : Value) (key : Bytes) : Option Value :=
  (v.members.find? fun m => m.1 == key).map Prod.snd

mutual

def Tree.value : Tree → Value
  | .null => .null
  | .bool b => .bool b
  | .number n => .number n
  | .string l => .string (Literal.decode l)
  | .emptyArray _ => .array []
  | .array ⟨_, v, _⟩ rest => .array (v.value :: elementValues rest)
  | .emptyObject _ => .object []
  | .object ⟨_, k, _, _, v, _⟩ rest =>
    .object ((Literal.decode k, v.value) :: memberValues rest)

def elementValues : List (Element Tree) → List Value
  | [] => []
  | ⟨_, v, _⟩ :: rest => v.value :: elementValues rest

def memberValues : List (Member Tree) → List (Bytes × Value)
  | [] => []
  | ⟨_, k, _, _, v, _⟩ :: rest => (Literal.decode k, v.value) :: memberValues rest

end

theorem elementValues_eq_map (es : List (Element Tree)) :
    elementValues es = es.map fun e => e.value.value := by
  induction es with
  | nil => rfl
  | cons e rest ih => simp only [elementValues, List.map_cons, ih]

theorem memberValues_eq_map (ms : List (Member Tree)) :
    memberValues ms = ms.map fun m => (m.name, m.value.value) := by
  induction ms with
  | nil => rfl
  | cons m rest ih => simp only [memberValues, List.map_cons, ih, Member.name]

/-- All elements of an array tree. -/
def Tree.elements : Tree → List (Element Tree)
  | .array first rest => first :: rest
  | _ => []

/-- All members of an object tree. -/
def Tree.members : Tree → List (Member Tree)
  | .object first rest => first :: rest
  | _ => []

/-- The object tree with these members, compactly closed when there are none. -/
def Tree.ofMembers : List (Member Tree) → Tree
  | [] => .emptyObject Space.none
  | first :: rest => .object first rest

/-- The array tree with these elements. -/
def Tree.ofElements : List (Element Tree) → Tree
  | [] => .emptyArray Space.none
  | first :: rest => .array first rest

@[simp] theorem Tree.value_ofMembers (ms : List (Member Tree)) :
    (Tree.ofMembers ms).value = .object (ms.map fun m => (m.name, m.value.value)) := by
  cases ms with
  | nil => rfl
  | cons first rest => simp [Tree.ofMembers, Tree.value, memberValues_eq_map, Member.name]

@[simp] theorem Tree.value_ofElements (es : List (Element Tree)) :
    (Tree.ofElements es).value = .array (es.map fun e => e.value.value) := by
  cases es with
  | nil => rfl
  | cons first rest => simp [Tree.ofElements, Tree.value, elementValues_eq_map]

theorem Tree.value_object (first : Member Tree) (rest : List (Member Tree)) :
    (Tree.object first rest).value =
      .object ((first :: rest).map fun m => (m.name, m.value.value)) :=
  Tree.value_ofMembers (first :: rest)

theorem Tree.value_array (first : Element Tree) (rest : List (Element Tree)) :
    (Tree.array first rest).value = .array ((first :: rest).map fun e => e.value.value) :=
  Tree.value_ofElements (first :: rest)

/-! ## Dialects -/

/-- The number and string tokens a reader takes. -/
structure Dialect where
  number : Number → Bool
  string : Literal → Bool

/-- The grammar itself, on octets. -/
def Dialect.rfc8259 : Dialect := ⟨fun _ => true, fun _ => true⟩

/-- The grammar for UTF-8 texts. -/
def Dialect.utf8 : Dialect := ⟨fun _ => true, fun l => Utf8.valid (Literal.raw l)⟩

@[simp] theorem Dialect.rfc8259_number (n : Number) : Dialect.rfc8259.number n = true := rfl

@[simp] theorem Dialect.rfc8259_string (l : Literal) : Dialect.rfc8259.string l = true := rfl

mutual

/-- The dialect takes every token of the tree. -/
def Tree.accepted (d : Dialect) : Tree → Bool
  | .number n => d.number n
  | .string l => d.string l
  | .array ⟨_, v, _⟩ rest => v.accepted d && elementsAccepted d rest
  | .object ⟨_, k, _, _, v, _⟩ rest => d.string k && v.accepted d && membersAccepted d rest
  | _ => true

def elementsAccepted (d : Dialect) : List (Element Tree) → Bool
  | [] => true
  | ⟨_, v, _⟩ :: rest => v.accepted d && elementsAccepted d rest

def membersAccepted (d : Dialect) : List (Member Tree) → Bool
  | [] => true
  | ⟨_, k, _, _, v, _⟩ :: rest => d.string k && v.accepted d && membersAccepted d rest

end

theorem elementsAccepted_eq_all (d : Dialect) (es : List (Element Tree)) :
    elementsAccepted d es = es.all fun e => e.value.accepted d := by
  induction es with
  | nil => rfl
  | cons e rest ih => simp only [elementsAccepted, List.all_cons, ih]

theorem membersAccepted_eq_all (d : Dialect) (ms : List (Member Tree)) :
    membersAccepted d ms = ms.all fun m => d.string m.key && m.value.accepted d := by
  induction ms with
  | nil => rfl
  | cons m rest ih => simp only [membersAccepted, List.all_cons, ih]

theorem Tree.accepted_array (d : Dialect) (first : Element Tree) (rest : List (Element Tree)) :
    (Tree.array first rest).accepted d = (first :: rest).all fun e => e.value.accepted d := by
  rw [← elementsAccepted_eq_all]
  rfl

theorem Tree.accepted_object (d : Dialect) (first : Member Tree) (rest : List (Member Tree)) :
    (Tree.object first rest).accepted d =
      (first :: rest).all fun m => d.string m.key && m.value.accepted d := by
  rw [← membersAccepted_eq_all]
  rfl

/-- A dialect that takes more tokens takes more trees. -/
theorem Tree.accepted_mono {d d' : Dialect} (hnumber : ∀ n, d.number n = true → d'.number n = true)
    (hstring : ∀ l, d.string l = true → d'.string l = true) (t : Tree)
    (h : t.accepted d = true) : t.accepted d' = true := by
  induction t with
  | number n => exact hnumber n h
  | string l => exact hstring l h
  | array first rest ih =>
    rw [Tree.accepted_array, List.all_eq_true] at h ⊢
    exact fun e he => ih e he (h e he)
  | object first rest ih =>
    rw [Tree.accepted_object, List.all_eq_true] at h ⊢
    intro m hm
    have hmem := h m hm
    rw [Bool.and_eq_true] at hmem ⊢
    exact ⟨hstring _ hmem.1, ih m hm hmem.2⟩
  | _ => rfl

/-- Every tree is made of tokens of the grammar. -/
theorem Tree.accepted_rfc8259 (t : Tree) : t.accepted Dialect.rfc8259 = true := by
  induction t with
  | array first rest ih =>
    rw [Tree.accepted_array, List.all_eq_true]
    exact ih
  | object first rest ih =>
    rw [Tree.accepted_object, List.all_eq_true]
    exact fun m hm => by simp [ih m hm]
  | _ => rfl

/-! ## Key Uniqueness and Nesting -/

mutual

/-- No object of the tree has two members with one decoded key. -/
def Tree.uniqueKeys : Tree → Bool
  | .array ⟨_, v, _⟩ rest => v.uniqueKeys && elementsUnique rest
  | .object first rest =>
    decide (((first :: rest).map Member.name).Nodup) &&
      (match first with | ⟨_, _, _, _, v, _⟩ => v.uniqueKeys) && membersUnique rest
  | _ => true

def elementsUnique : List (Element Tree) → Bool
  | [] => true
  | ⟨_, v, _⟩ :: rest => v.uniqueKeys && elementsUnique rest

def membersUnique : List (Member Tree) → Bool
  | [] => true
  | ⟨_, _, _, _, v, _⟩ :: rest => v.uniqueKeys && membersUnique rest

end

theorem elementsUnique_eq_all (es : List (Element Tree)) :
    elementsUnique es = es.all fun e => e.value.uniqueKeys := by
  induction es with
  | nil => rfl
  | cons e rest ih => simp only [elementsUnique, List.all_cons, ih]

theorem membersUnique_eq_all (ms : List (Member Tree)) :
    membersUnique ms = ms.all fun m => m.value.uniqueKeys := by
  induction ms with
  | nil => rfl
  | cons m rest ih => simp only [membersUnique, List.all_cons, ih]

theorem Tree.uniqueKeys_array (first : Element Tree) (rest : List (Element Tree)) :
    (Tree.array first rest).uniqueKeys = elementsUnique (first :: rest) := rfl

theorem Tree.uniqueKeys_object (first : Member Tree) (rest : List (Member Tree)) :
    (Tree.object first rest).uniqueKeys =
      (decide ((first :: rest).map Member.name).Nodup && membersUnique (first :: rest)) := by
  simp [Tree.uniqueKeys, membersUnique, Bool.and_assoc]

/-- The names of an object whose keys are unique are distinct. -/
theorem Tree.names_nodup {t : Tree} (hunique : t.uniqueKeys = true) :
    (t.value.members.map Prod.fst).Nodup := by
  cases t with
  | object first rest =>
    rw [Tree.uniqueKeys_object, Bool.and_eq_true, decide_eq_true_iff] at hunique
    rw [Tree.value_object, Value.members, List.map_map]
    exact hunique.1
  | _ => exact List.nodup_nil

/-- The value of a text in which no object repeats a key. -/
def Value.Unrepeated (v : Value) : Prop := ∃ t : Tree, t.value = v ∧ t.uniqueKeys = true

section Unrepeated

variable {v w : Value}

theorem Value.Unrepeated.nodup (h : v.Unrepeated) : (v.members.map Prod.fst).Nodup := by
  obtain ⟨t, rfl, hunique⟩ := h
  exact Tree.names_nodup hunique

theorem Value.Unrepeated.member (h : v.Unrepeated) {m : Bytes × Value} (hm : m ∈ v.members) :
    m.2.Unrepeated := by
  obtain ⟨t, rfl, hunique⟩ := h
  cases t with
  | object first rest =>
    rw [Tree.uniqueKeys_object, Bool.and_eq_true, membersUnique_eq_all, List.all_eq_true] at hunique
    rw [Tree.value_object, Value.members, List.mem_map] at hm
    obtain ⟨member, hmember, rfl⟩ := hm
    exact ⟨member.value, rfl, hunique.2 member hmember⟩
  | _ => simp [Tree.value, Value.members] at hm

theorem Value.Unrepeated.get? (h : v.Unrepeated) {key : Bytes} (hw : v.get? key = some w) :
    w.Unrepeated := by
  obtain ⟨m, hm, rfl⟩ := Option.map_eq_some_iff.mp hw
  exact h.member (List.mem_of_find?_eq_some hm)

theorem Value.Unrepeated.item {items : List Value} (h : (Value.array items).Unrepeated)
    (hw : w ∈ items) : w.Unrepeated := by
  obtain ⟨t, hvalue, hunique⟩ := h
  cases t with
  | array first rest =>
    rw [Tree.value_array] at hvalue
    obtain rfl := Value.array.inj hvalue
    obtain ⟨e, he, rfl⟩ := List.mem_map.mp hw
    rw [Tree.uniqueKeys_array, elementsUnique_eq_all, List.all_eq_true] at hunique
    exact ⟨e.value, rfl, hunique e he⟩
  | emptyArray =>
    obtain rfl := Value.array.inj hvalue
    simp at hw
  | _ => simp [Tree.value] at hvalue

end Unrepeated

mutual

/-- The number of containers around the most deeply nested token. -/
def Tree.height : Tree → Nat
  | .emptyArray _ => 1
  | .array ⟨_, v, _⟩ rest => max v.height (elementsHeight rest) + 1
  | .emptyObject _ => 1
  | .object ⟨_, _, _, _, v, _⟩ rest => max v.height (membersHeight rest) + 1
  | _ => 0

def elementsHeight : List (Element Tree) → Nat
  | [] => 0
  | ⟨_, v, _⟩ :: rest => max v.height (elementsHeight rest)

def membersHeight : List (Member Tree) → Nat
  | [] => 0
  | ⟨_, _, _, _, v, _⟩ :: rest => max v.height (membersHeight rest)

end

theorem elementsHeight_le {es : List (Element Tree)} {h : Nat}
    (hes : ∀ e ∈ es, e.value.height ≤ h) : elementsHeight es ≤ h := by
  induction es with
  | nil => exact Nat.zero_le h
  | cons e rest ih =>
    have he := hes e (List.mem_cons_self ..)
    have hrest := ih fun x hx => hes x (List.mem_cons_of_mem _ hx)
    simp only [elementsHeight]
    omega

theorem membersHeight_le {ms : List (Member Tree)} {h : Nat}
    (hms : ∀ m ∈ ms, m.value.height ≤ h) : membersHeight ms ≤ h := by
  induction ms with
  | nil => exact Nat.zero_le h
  | cons m rest ih =>
    have hm := hms m (List.mem_cons_self ..)
    have hrest := ih fun x hx => hms x (List.mem_cons_of_mem _ hx)
    simp only [membersHeight]
    omega

/-! ## Assembled Containers -/

section Assembled

variable (d : Dialect) (ms : List (Member Tree)) (es : List (Element Tree))

theorem Tree.accepted_ofMembers :
    (Tree.ofMembers ms).accepted d = ms.all fun m => d.string m.key && m.value.accepted d := by
  cases ms with
  | nil => rfl
  | cons first rest => exact Tree.accepted_object d first rest

theorem Tree.accepted_ofElements :
    (Tree.ofElements es).accepted d = es.all fun e => e.value.accepted d := by
  cases es with
  | nil => rfl
  | cons first rest => exact Tree.accepted_array d first rest

theorem Tree.uniqueKeys_ofMembers :
    (Tree.ofMembers ms).uniqueKeys =
      (decide (ms.map Member.name).Nodup && ms.all fun m => m.value.uniqueKeys) := by
  cases ms with
  | nil => rfl
  | cons first rest => rw [← membersUnique_eq_all, ← Tree.uniqueKeys_object, Tree.ofMembers]

theorem Tree.uniqueKeys_ofElements :
    (Tree.ofElements es).uniqueKeys = es.all fun e => e.value.uniqueKeys := by
  cases es with
  | nil => rfl
  | cons first rest => rw [← elementsUnique_eq_all, ← Tree.uniqueKeys_array, Tree.ofElements]

variable {ms es}

theorem Tree.height_ofMembers {h : Nat} (hms : ∀ m ∈ ms, m.value.height ≤ h) :
    (Tree.ofMembers ms).height ≤ h + 1 := by
  cases ms with
  | nil => exact Nat.le_add_left 1 h
  | cons first rest => exact Nat.succ_le_succ (membersHeight_le hms)

theorem Tree.height_ofElements {h : Nat} (hes : ∀ e ∈ es, e.value.height ≤ h) :
    (Tree.ofElements es).height ≤ h + 1 := by
  cases es with
  | nil => exact Nat.le_add_left 1 h
  | cons first rest => exact Nat.succ_le_succ (elementsHeight_le hes)

end Assembled

/-! ## Parse Events -/

inductive EventKind where
  | objectStart
  | objectEnd
  | arrayStart
  | arrayEnd
  | key (name : Bytes)
  | value

/-- A reader's report, with the number of containers open around it. -/
structure ParseEvent where
  depth : Nat
  kind : EventKind

mutual

/-- The reports on a value at the given depth; an object's keys lie one level below its start. -/
def Tree.events (depth : Nat) : Tree → List ParseEvent
  | .emptyArray _ => [⟨depth, .arrayStart⟩, ⟨depth, .arrayEnd⟩]
  | .array ⟨_, v, _⟩ rest =>
    ⟨depth, .arrayStart⟩ :: (v.events (depth + 1) ++ elementEvents (depth + 1) rest ++
      [⟨depth, .arrayEnd⟩])
  | .emptyObject _ => [⟨depth, .objectStart⟩, ⟨depth, .objectEnd⟩]
  | .object ⟨_, k, _, _, v, _⟩ rest =>
    ⟨depth, .objectStart⟩ :: (⟨depth + 1, .key (Literal.decode k)⟩ ::
      v.events (depth + 1) ++ memberEvents (depth + 1) rest ++ [⟨depth, .objectEnd⟩])
  | _ => [⟨depth, .value⟩]

def elementEvents (depth : Nat) : List (Element Tree) → List ParseEvent
  | [] => []
  | ⟨_, v, _⟩ :: rest => v.events depth ++ elementEvents depth rest

def memberEvents (depth : Nat) : List (Member Tree) → List ParseEvent
  | [] => []
  | ⟨_, k, _, _, v, _⟩ :: rest =>
    ⟨depth, .key (Literal.decode k)⟩ :: v.events depth ++ memberEvents depth rest

end

theorem Tree.events_array (depth : Nat) (first : Element Tree) (rest : List (Element Tree)) :
    (Tree.array first rest).events depth =
      ⟨depth, .arrayStart⟩ ::
        (elementEvents (depth + 1) (first :: rest) ++ [⟨depth, .arrayEnd⟩]) := by
  simp [Tree.events, elementEvents]

theorem Tree.events_object (depth : Nat) (first : Member Tree) (rest : List (Member Tree)) :
    (Tree.object first rest).events depth =
      ⟨depth, .objectStart⟩ ::
        (memberEvents (depth + 1) (first :: rest) ++ [⟨depth, .objectEnd⟩]) := by
  simp [Tree.events, memberEvents]

end EquipmentMonitoring.Json
