/-!
# Validation that Collects Errors

A validator does not stop at the first error: it reports all of them, in the order of its checks.
Combining validators applicatively appends their reports.

## Key Results

- `seq_eq_valid`: a combination is valid when each part is
- `errors_seq`: its errors are those of the parts, in order
-/

namespace EquipmentMonitoring

/-- A value, or everything that is wrong with it. -/
inductive Checked (ε α : Type) where
  | valid (a : α)
  /-- At least one error. -/
  | invalid (errors : List ε) (nonempty : errors ≠ [])

namespace Checked

variable {ε α β : Type}

/-- The errors reported. -/
def errors : Checked ε α → List ε
  | .valid _ => []
  | .invalid errors _ => errors

/-- A single error. -/
def fail (error : ε) : Checked ε α := .invalid [error] (List.cons_ne_nil _ _)

/-- The given errors, if there are any. -/
def ofErrors (errors : List ε) (a : α) : Checked ε α :=
  match errors with
  | [] => .valid a
  | error :: rest => .invalid (error :: rest) (List.cons_ne_nil _ _)

/-- Apply a checked function; both sides report. -/
def apply (f : Checked ε (α → β)) (x : Checked ε α) : Checked ε β :=
  match f, x with
  | .valid f, .valid a => .valid (f a)
  | .valid _, .invalid es h => .invalid es h
  | .invalid es h, x => .invalid (es ++ x.errors) (List.append_ne_nil_of_left_ne_nil h _)

instance : Applicative (Checked ε) where
  pure := valid
  seq f x := apply f (x ())

/-- Change every error. -/
def mapErrors {ε' : Type} (g : ε → ε') : Checked ε α → Checked ε' α
  | .valid a => .valid a
  | .invalid es h => .invalid (es.map g) (fun h' => h (List.map_eq_nil_iff.mp h'))

/-- A computation with one error at most. -/
def ofExcept : Except ε α → Checked ε α
  | .ok a => .valid a
  | .error error => fail error

/-! ## Validity -/

theorem seq_eq_valid {f : Checked ε (α → β)} {x : Checked ε α} {b : β} :
    f <*> x = .valid b ↔ ∃ g a, f = .valid g ∧ x = .valid a ∧ g a = b := by
  cases f <;> cases x <;> simp [Seq.seq, apply]

theorem map_eq_valid {g : α → β} {x : Checked ε α} {b : β} :
    g <$> x = .valid b ↔ ∃ a, x = .valid a ∧ g a = b := by
  cases x <;> simp [Functor.map, apply]

@[simp] theorem ofExcept_eq_valid {x : Except ε α} {a : α} :
    ofExcept x = .valid a ↔ x = .ok a := by
  cases x <;> simp [ofExcept, fail]

@[simp] theorem mapErrors_eq_valid {ε' : Type} {g : ε → ε'} {x : Checked ε α} {a : α} :
    x.mapErrors g = .valid a ↔ x = .valid a := by
  cases x <;> simp [mapErrors]

@[simp] theorem ofErrors_eq_valid {es : List ε} {a b : α} :
    ofErrors es a = .valid b ↔ es = [] ∧ a = b := by
  cases es <;> simp [ofErrors]

/-! ## Reports -/

@[simp] theorem errors_valid (a : α) : (Checked.valid a : Checked ε α).errors = [] := rfl

@[simp] theorem errors_seq (f : Checked ε (α → β)) (x : Checked ε α) :
    (f <*> x).errors = f.errors ++ x.errors := by
  cases f <;> cases x <;> simp [Seq.seq, apply, errors]

@[simp] theorem errors_map (g : α → β) (x : Checked ε α) : (g <$> x).errors = x.errors := by
  cases x <;> simp [Functor.map, apply, errors]

@[simp] theorem errors_mapErrors {ε' : Type} (g : ε → ε') (x : Checked ε α) :
    (x.mapErrors g).errors = x.errors.map g := by
  cases x <;> simp [mapErrors, errors]

@[simp] theorem errors_ofErrors (es : List ε) (a : α) : (ofErrors es a).errors = es := by
  cases es <;> rfl

/-- Without a report, the value is valid. -/
theorem exists_of_errors_eq_nil {x : Checked ε α} (h : x.errors = []) : ∃ a, x = .valid a := by
  cases x with
  | valid a => exact ⟨a, rfl⟩
  | invalid es hne => exact absurd h hne

end Checked

end EquipmentMonitoring
