import Mathlib.Data.List.Basic

/-!
# Statements, Faults and Transactions

A program over a database is a sequence of statements, each made of several calls into the
database library. Any call may fail, which throws; a transaction that ends by an exception is
rolled back. Faults are given in advance as a list with one entry per call.

## Key Results

- `transaction_cases`: a transaction either throws and leaves the data alone, or does what it
  does without faults
- `exec_bind`, `exec_statement`, `exec_transaction`: the meaning without faults
- `Costs`: how many calls a program makes, and that one fault among them makes it throw
- `Unhindered`: where no call fails, only the data decide how a program ends
-/

namespace EquipmentMonitoring

/-- The data a connection sees, and which of the coming calls fail; the rest succeed. -/
structure Connection (σ : Type) where
  data : σ
  faults : List Bool

/-- A program that ends with a result or an exception. -/
def Sql (σ α : Type) : Type := Connection σ → Except String α × Connection σ

/-- How the body of a transaction ends when it does not throw. -/
inductive Finish (α : Type) where
  | commit (a : α)
  | rollback (a : α)

namespace Sql

variable {σ α β : Type}

/-! ## Programs -/

def ok (a : α) : Sql σ α := fun c => (.ok a, c)

def raise (what : String) : Sql σ α := fun c => (.error what, c)

def andThen (x : Sql σ α) (f : α → Sql σ β) : Sql σ β := fun c =>
  match x c with
  | (.ok a, c') => f a c'
  | (.error what, c') => (.error what, c')

instance : Monad (Sql σ) where
  pure := ok
  bind := andThen

/-- Make `n` calls. -/
def calls : Nat → Sql σ Unit
  | 0 => ok ()
  | n + 1 => fun c =>
    match c.faults with
    | true :: rest => (.error "SQLite operation failed", { c with faults := rest })
    | false :: rest => calls n { c with faults := rest }
    | [] => calls n c

/-- A statement: prepared, bound and stepped in `n` calls, then in effect unless the data refuse. -/
def statement (n : Nat) (f : σ → Except String (α × σ)) : Sql σ α := andThen (calls n) fun _ c =>
  match f c.data with
  | .ok (a, d) => (.ok a, { c with data := d })
  | .error what => (.error what, c)

/-- A query. -/
def query (n : Nat) (f : σ → α) : Sql σ α := statement n fun d => .ok (f d, d)

/-- BEGIN, the body, then COMMIT; an exception or an early return rolls back. -/
def transaction (x : Sql σ (Finish α)) : Sql σ α := andThen (calls 1) fun _ c =>
  match x c with
  | (.error what, c') => (.error what, { c' with data := c.data })
  | (.ok (.rollback a), c') => (.ok a, { c' with data := c.data })
  | (.ok (.commit a), c') =>
    match calls 1 c' with
    | (.ok _, c'') => (.ok a, c'')
    | (.error what, c'') => (.error what, { c'' with data := c.data })

/-- `try x catch (e) handler`. -/
def orElse (x : Sql σ α) (handler : String → Sql σ α) : Sql σ α := fun c =>
  match x c with
  | (.ok a, c') => (.ok a, c')
  | (.error what, c') => handler what c'

/-- The result when no call fails. -/
def exec (x : Sql σ α) (d : σ) : Except String α × σ := ((x ⟨d, []⟩).1, (x ⟨d, []⟩).2.data)

theorem calls_data (n : Nat) (c : Connection σ) : (calls n c).2.data = c.data := by
  induction n generalizing c with
  | zero => rfl
  | succ n ih =>
    unfold calls
    split
    · rfl
    · exact ih _
    · exact ih _

/-- The program leaves the data alone, whether it returns or throws. -/
def ReadOnly (x : Sql σ α) : Prop := ∀ c, (x c).2.data = c.data

theorem readOnly_ok (a : α) : ReadOnly (ok a : Sql σ α) := fun _ => rfl

theorem readOnly_raise (what : String) : ReadOnly (raise what : Sql σ α) := fun _ => rfl

theorem readOnly_bind {x : Sql σ α} {f : α → Sql σ β} (hx : ReadOnly x)
    (hf : ∀ a, ReadOnly (f a)) : ReadOnly (x >>= f) := by
  intro c
  have hdata := hx c
  simp only [bind, andThen]
  rcases h : x c with ⟨what | a, c'⟩
  · rw [h] at hdata
    exact hdata
  · rw [h] at hdata
    exact (hf a c').trans hdata

theorem readOnly_statement {n : Nat} {f : σ → Except String (α × σ)}
    (hf : ∀ d a d', f d = .ok (a, d') → d' = d) : ReadOnly (statement n f) := by
  refine readOnly_bind (calls_data n) fun _ c => ?_
  cases hd : f c.data with
  | error what => simp only
  | ok p => simp only; exact hf _ p.1 p.2 hd

/-! ## Programs without Handlers -/

/-- The program consumes no faults it is not given, and where it succeeds it does so as without
faults. -/
structure Stable (x : Sql σ α) : Prop where
  clean : ∀ d, (x ⟨d, []⟩).2.faults = []
  result : ∀ c a c', x c = (.ok a, c') → x ⟨c.data, []⟩ = (.ok a, ⟨c'.data, []⟩)

theorem apply_eq_exec {x : Sql σ α} (hx : Stable x) (d : σ) :
    x ⟨d, []⟩ = ((exec x d).1, ⟨(exec x d).2, []⟩) := by
  have hclean := hx.clean d
  rcases h : x ⟨d, []⟩ with ⟨r, d', fs⟩
  simp only [h] at hclean
  simp [exec, h, hclean]

theorem stable_ok (a : α) : Stable (ok a : Sql σ α) where
  clean _ := rfl
  result := by
    intro c b c' h
    obtain ⟨hr, rfl⟩ := Prod.mk.inj h
    obtain rfl := Except.ok.inj hr
    rfl

theorem stable_raise (what : String) : Stable (raise what : Sql σ α) where
  clean _ := rfl
  result := by
    rintro c a c' h
    simp [raise] at h

theorem calls_nofault (n : Nat) (d : σ) : calls n ⟨d, []⟩ = (.ok (), ⟨d, []⟩) := by
  induction n with
  | zero => rfl
  | succ n ih => exact ih

theorem stable_calls (n : Nat) : Stable (calls n : Sql σ Unit) where
  clean d := by rw [calls_nofault]
  result := by
    intro c a c' h
    have hdata := calls_data n c
    rw [h] at hdata
    rw [calls_nofault, ← hdata]

theorem stable_bind {x : Sql σ α} {f : α → Sql σ β} (hx : Stable x) (hf : ∀ a, Stable (f a)) :
    Stable (x >>= f) where
  clean d := by
    simp only [bind, andThen]
    rw [apply_eq_exec hx d]
    rcases exec x d with ⟨r, d'⟩
    cases r with
    | error what => rfl
    | ok a => exact (hf a).clean d'
  result := by
    intro c b c' h
    simp only [bind, andThen] at h ⊢
    rcases hxc : x c with ⟨r, c₁⟩
    cases r with
    | error what => simp [hxc] at h
    | ok a =>
      simp only [hxc] at h
      rw [hx.result c a c₁ hxc]
      exact (hf a).result c₁ b c' h

theorem stable_statement (n : Nat) (f : σ → Except String (α × σ)) :
    Stable (statement n f) := by
  refine stable_bind (stable_calls n) fun _ => ⟨fun d => ?_, fun c a c' h => ?_⟩
  · simp only
    split <;> rfl
  · simp only at h ⊢
    split at h
    · obtain ⟨hr, rfl⟩ := Prod.mk.inj h
      obtain rfl := Except.ok.inj hr
      rfl
    · simp at h

theorem stable_query (n : Nat) (f : σ → α) : Stable (query n f) := stable_statement n _

theorem stable_forM {xs : List α} {f : α → Sql σ Unit} (hf : ∀ a, Stable (f a)) :
    Stable (xs.forM f) := by
  induction xs with
  | nil => exact stable_ok _
  | cons a rest ih => exact stable_bind (hf a) fun _ => ih

/-! ## Meaning without Faults -/

@[simp] theorem exec_ok (a : α) (d : σ) : exec (ok a) d = (.ok a, d) := rfl

@[simp] theorem exec_pure (a : α) (d : σ) : exec (pure a : Sql σ α) d = (.ok a, d) := rfl

@[simp] theorem exec_raise (what : String) (d : σ) :
    exec (raise what : Sql σ α) d = (.error what, d) := rfl

theorem exec_bind {x : Sql σ α} (hx : Stable x) (f : α → Sql σ β) (d : σ) :
    exec (x >>= f) d =
      match exec x d with
      | (.ok a, d') => exec (f a) d'
      | (.error what, d') => (.error what, d') := by
  simp only [exec, bind, andThen]
  rw [apply_eq_exec hx d]
  rcases exec x d with ⟨r, d'⟩
  cases r <;> rfl

@[simp] theorem exec_statement (n : Nat) (f : σ → Except String (α × σ)) (d : σ) :
    exec (statement n f) d =
      match f d with
      | .ok (a, d') => (.ok a, d')
      | .error what => (.error what, d) := by
  simp only [exec, statement, andThen, calls_nofault]
  cases f d <;> rfl

@[simp] theorem exec_query (n : Nat) (f : σ → α) (d : σ) : exec (query n f) d = (.ok (f d), d) := by
  simp [query]

@[simp] theorem exec_statement_bind (n : Nat) (f : σ → Except String (α × σ)) (g : α → Sql σ β)
    (d : σ) :
    exec (statement n f >>= g) d =
      match f d with
      | .ok (a, d') => exec (g a) d'
      | .error what => (.error what, d) := by
  rw [exec_bind (stable_statement n f), exec_statement]
  cases f d <;> rfl

@[simp] theorem exec_query_bind (n : Nat) (f : σ → α) (g : α → Sql σ β) (d : σ) :
    exec (query n f >>= g) d = exec (g (f d)) d := by
  simp [query]

theorem exec_forM_cons {f : α → Sql σ Unit} (hf : ∀ a, Stable (f a)) (a : α) (xs : List α)
    (d : σ) :
    exec ((a :: xs).forM f) d =
      match exec (f a) d with
      | (.ok _, d') => exec (xs.forM f) d'
      | (.error what, d') => (.error what, d') := by
  have hcons : (a :: xs).forM f = (f a >>= fun _ => xs.forM f) := rfl
  rw [hcons, exec_bind (hf a)]
  rcases exec (f a) d with ⟨_ | _, _⟩ <;> rfl

theorem exec_transaction {x : Sql σ (Finish α)} (hx : Stable x) (d : σ) :
    exec (transaction x) d =
      match exec x d with
      | (.ok (.commit a), d') => (.ok a, d')
      | (.ok (.rollback a), _) => (.ok a, d)
      | (.error what, _) => (.error what, d) := by
  simp only [exec, transaction, andThen, calls_nofault]
  rw [apply_eq_exec hx d]
  rcases exec x d with ⟨r, d'⟩
  rcases r with what | (a | a)
  · rfl
  · simp [calls_nofault]
  · rfl

/-- The handler runs on the data the failed program left. -/
theorem exec_orElse_bind {x : Sql σ α} (hx : Stable x) (handler : String → Sql σ α)
    (f : α → Sql σ β) (d : σ) :
    exec (orElse x handler >>= f) d =
      match exec x d with
      | (.ok a, d') => exec (f a) d'
      | (.error what, d') => exec (handler what >>= f) d' := by
  simp only [exec, bind, andThen, orElse]
  rw [apply_eq_exec hx d]
  rcases exec x d with ⟨r, d'⟩
  cases r <;> rfl

theorem exec_bind_eq_ok {x : Sql σ α} (hx : Stable x) {f : α → Sql σ β} {d d'' : σ} {b : β} :
    exec (x >>= f) d = (.ok b, d'') ↔
      ∃ a d', exec x d = (.ok a, d') ∧ exec (f a) d' = (.ok b, d'') := by
  rw [exec_bind hx]
  rcases exec x d with ⟨what | a, d'⟩ <;> simp

theorem exec_transaction_eq_ok {x : Sql σ (Finish α)} (hx : Stable x) {d d' : σ} {a : α} :
    exec (transaction x) d = (.ok a, d') ↔
      exec x d = (.ok (.commit a), d') ∨ (∃ d'', exec x d = (.ok (.rollback a), d'')) ∧ d' = d := by
  rw [exec_transaction hx]
  rcases exec x d with ⟨what | (b | b), d''⟩ <;> simp [eq_comm]

/-! ## Atomicity -/

/-- A transaction either throws and leaves the data alone, or does what it does without faults. -/
theorem transaction_cases {x : Sql σ (Finish α)} (hx : Stable x) (c : Connection σ) :
    (∃ what, (transaction x c).1 = .error what ∧ (transaction x c).2.data = c.data) ∨
      (∃ a, (transaction x c).1 = .ok a ∧
        exec (transaction x) c.data = (.ok a, (transaction x c).2.data)) := by
  rw [exec_transaction hx]
  have hbegin := calls_data 1 c
  simp only [transaction, andThen]
  rcases hc : calls 1 c with ⟨_ | _, c₁⟩
  · rw [hc] at hbegin
    exact .inl ⟨_, rfl, hbegin⟩
  · rw [hc] at hbegin
    simp only at hbegin ⊢
    -- An error of the body rolls back; a failed COMMIT takes no effect.
    rcases hbody : x c₁ with ⟨what | (a | a), c₂⟩
    · exact .inl ⟨what, rfl, hbegin⟩
    · have hexec : exec x c.data = (.ok (.commit a), c₂.data) := by
        rw [← hbegin, exec, hx.result _ _ _ hbody]
      have hcommit := calls_data 1 c₂
      rcases hc₂ : calls 1 c₂ with ⟨what | _, c₃⟩
      · exact .inl ⟨what, by simp only [hc₂], by simp only [hc₂]; exact hbegin⟩
      · rw [hc₂] at hcommit
        exact .inr ⟨a, by simp only [hc₂], by simp only [hexec, hc₂]; rw [← hcommit]⟩
    · have hexec : exec x c.data = (.ok (.rollback a), c₂.data) := by
        rw [← hbegin, exec, hx.result _ _ _ hbody]
      exact .inr ⟨a, rfl, by simp only [hexec, hbegin]⟩

/-- The same with calls before it that do not touch the data. -/
theorem calls_transaction_cases (n : Nat) {x : Sql σ (Finish α)} (hx : Stable x)
    (c : Connection σ) :
    (∃ what, ((calls n >>= fun _ => transaction x) c).1 = .error what ∧
        ((calls n >>= fun _ => transaction x) c).2.data = c.data) ∨
      (∃ a, ((calls n >>= fun _ => transaction x) c).1 = .ok a ∧
        exec (calls n >>= fun _ => transaction x) c.data =
          (.ok a, ((calls n >>= fun _ => transaction x) c).2.data)) := by
  have hexec (d : σ) : exec (calls n >>= fun _ => transaction x) d = exec (transaction x) d := by
    simp only [exec, bind, andThen, calls_nofault]
  have hdata := calls_data n c
  rw [hexec]
  simp only [bind, andThen]
  rcases hc : calls n c with ⟨what | _, c'⟩
  · rw [hc] at hdata
    exact .inl ⟨what, rfl, hdata⟩
  · rw [hc] at hdata
    rw [← hdata]
    exact transaction_cases hx c'

theorem stable_transaction {x : Sql σ (Finish α)} (hx : Stable x) : Stable (transaction x) := by
  -- A run without faults left to come uses none.
  have hclean (d : σ) : (transaction x ⟨d, []⟩).2.faults = [] := by
    simp only [transaction, andThen, calls_nofault]
    rw [apply_eq_exec hx d]
    rcases exec x d with ⟨what | (a | a), d'⟩
    · rfl
    · simp [calls_nofault]
    · rfl
  refine ⟨hclean, fun c a c' h => ?_⟩
  rcases transaction_cases hx c with ⟨what, herr, -⟩ | ⟨b, hok, hexec⟩
  · simp [h] at herr
  · obtain rfl : a = b := by simpa [h] using hok
    have hfaults := hclean c.data
    rw [h] at hexec
    rcases hrun : transaction x ⟨c.data, []⟩ with ⟨r, d, fs⟩
    simp only [exec, hrun, Prod.mk.injEq] at hexec hfaults
    rw [hexec.1, hexec.2, hfaults]

/-! ## The Number of Calls -/

/-- None of the next `n` calls fails. -/
def spares (n : Nat) (faults : List Bool) : Bool := (faults.take n).all fun fault => !fault

theorem spares_add (n m : Nat) (faults : List Bool) :
    spares (n + m) faults = (spares n faults && spares m (faults.drop n)) := by
  simp only [spares, List.take_add, List.all_append]

/-- From these data the program returns `a` in exactly `n` calls, and throws when one of them
fails. -/
structure Costs (n : Nat) (x : Sql σ α) (d : σ) (a : α) (d' : σ) : Prop where
  spared : ∀ faults, spares n faults = true → x ⟨d, faults⟩ = (.ok a, ⟨d', faults.drop n⟩)
  hit : ∀ faults, spares n faults = false → ∃ what, (x ⟨d, faults⟩).1 = .error what

theorem costs_ok (a : α) (d : σ) : Costs 0 (ok a) d a d where
  spared _ _ := rfl
  hit _ h := by simp [spares] at h

theorem costs_calls (n : Nat) (d : σ) : Costs n (calls n) d () d := by
  induction n with
  | zero => exact costs_ok () d
  | succ n ih =>
    -- with n calls to come, a fault among the next n hits one of them
    constructor
    · intro faults h
      cases faults with
      | nil => exact calls_nofault _ d
      | cons fault rest =>
        simp only [spares, List.take_succ_cons, List.all_cons, Bool.and_eq_true,
          Bool.not_eq_true'] at h
        rw [h.1, calls]
        exact ih.spared rest h.2
    · intro faults h
      cases faults with
      | nil => simp [spares] at h
      | cons fault rest =>
        cases fault with
        | true => exact ⟨_, rfl⟩
        | false => exact ih.hit rest (by simpa [spares] using h)

variable {n m : Nat} {d d' d'' : σ} {a : α} {b : β}

theorem costs_andThen {x : Sql σ α} {f : α → Sql σ β} (hx : Costs n x d a d')
    (hf : Costs m (f a) d' b d'') : Costs (n + m) (andThen x f) d b d'' := by
  constructor
  · intro faults h
    rw [spares_add, Bool.and_eq_true] at h
    rw [andThen, hx.spared faults h.1]
    simp only [hf.spared _ h.2, List.drop_drop]
  · intro faults h
    rw [spares_add] at h
    cases hn : spares n faults with
    | false =>
      -- the fault falls in the first part, and the second does not run
      obtain ⟨what, herr⟩ := hx.hit faults hn
      rcases hrun : x ⟨d, faults⟩ with ⟨r, c⟩
      rw [hrun] at herr
      obtain rfl : r = .error what := herr
      exact ⟨what, by rw [andThen, hrun]⟩
    | true =>
      rw [andThen, hx.spared faults hn]
      exact hf.hit _ (by simpa [hn] using h)

theorem costs_bind {x : Sql σ α} {f : α → Sql σ β} (hx : Costs n x d a d')
    (hf : Costs m (f a) d' b d'') : Costs (n + m) (x >>= f) d b d'' :=
  costs_andThen hx hf

theorem costs_statement {f : σ → Except String (α × σ)} (h : f d = .ok (a, d')) :
    Costs n (statement n f) d a d' := by
  refine costs_andThen (m := 0) (costs_calls n d) ⟨fun faults _ => ?_, fun faults h => ?_⟩
  · simp only [h]
    rfl
  · simp [spares] at h

/-- BEGIN and COMMIT are calls too. -/
theorem costs_transaction {x : Sql σ (Finish α)} (hx : Costs n x d (.commit a) d') :
    Costs (1 + (n + 1)) (transaction x) d a d' := by
  refine costs_andThen (costs_calls 1 d) ⟨fun faults h => ?_, fun faults h => ?_⟩
  · rw [spares_add, Bool.and_eq_true] at h
    have hbody := hx.spared faults h.1
    have hcommit := (costs_calls 1 d').spared _ h.2
    simp only [hbody, hcommit, List.drop_drop]
  · rw [spares_add] at h
    cases hn : spares n faults with
    | false =>
      obtain ⟨what, herr⟩ := hx.hit faults hn
      refine ⟨what, ?_⟩
      rcases hrun : x ⟨d, faults⟩ with ⟨r, c⟩
      rw [hrun] at herr
      obtain rfl : r = .error what := herr
      simp only
    | true =>
      obtain ⟨what, herr⟩ := (costs_calls 1 d').hit (faults.drop n) (by simpa [hn] using h)
      rcases hrun : calls 1 ⟨d', faults.drop n⟩ with ⟨r, c⟩
      rw [hrun] at herr
      obtain rfl : r = .error what := herr
      exact ⟨what, by simp only [hx.spared faults hn, hrun]⟩

/-! ## Runs without a Fault -/

/-- Faults that are all spared change nothing: the program ends as it does without any. -/
def Unhindered (x : Sql σ α) : Prop := ∀ c, true ∉ c.faults →
  (x c).1 = (exec x c.data).1 ∧ (x c).2.data = (exec x c.data).2 ∧ true ∉ (x c).2.faults

theorem unhindered_ok (a : α) : Unhindered (ok a : Sql σ α) := fun _ h => ⟨rfl, rfl, h⟩

theorem unhindered_raise (what : String) : Unhindered (raise what : Sql σ α) :=
  fun _ h => ⟨rfl, rfl, h⟩

theorem calls_spared (n : Nat) {c : Connection σ} (h : true ∉ c.faults) :
    calls n c = (.ok (), ⟨c.data, c.faults.drop n⟩) := by
  refine (costs_calls n c.data).spared c.faults ?_
  simp only [spares, List.all_eq_true, Bool.not_eq_true']
  intro fault hfault
  exact Bool.eq_false_iff.mpr fun htrue => h (htrue ▸ List.mem_of_mem_take hfault)

theorem unhindered_bind {x : Sql σ α} {f : α → Sql σ β} (hstable : Stable x) (hx : Unhindered x)
    (hf : ∀ a, Unhindered (f a)) : Unhindered (x >>= f) := by
  intro c h
  obtain ⟨hresult, hdata, hfaults⟩ := hx c h
  rw [exec_bind hstable]
  simp only [bind, andThen]
  rcases hrun : x c with ⟨r, c'⟩
  rcases hexec : exec x c.data with ⟨r', d'⟩
  simp only [hrun, hexec] at hresult hdata hfaults
  subst hresult hdata
  cases r with
  | error what => exact ⟨rfl, rfl, hfaults⟩
  | ok a => exact hf a c' hfaults

theorem unhindered_statement (n : Nat) (f : σ → Except String (α × σ)) :
    Unhindered (statement n f) := by
  intro c h
  rw [exec_statement]
  simp only [statement, andThen, calls_spared n h]
  have hdrop : true ∉ c.faults.drop n := fun hmem => h (List.mem_of_mem_drop hmem)
  cases f c.data with
  | error what => exact ⟨rfl, rfl, hdrop⟩
  | ok p => exact ⟨rfl, rfl, hdrop⟩

theorem unhindered_query (n : Nat) (f : σ → α) : Unhindered (query n f) :=
  unhindered_statement n _

theorem unhindered_transaction {x : Sql σ (Finish α)} (hstable : Stable x) (hx : Unhindered x) :
    Unhindered (transaction x) := by
  intro c h
  have hdrop : true ∉ c.faults.drop 1 := fun hmem => h (List.mem_of_mem_drop hmem)
  obtain ⟨hresult, hdata, hfaults⟩ := hx ⟨c.data, c.faults.drop 1⟩ hdrop
  rw [exec_transaction hstable]
  simp only [transaction, andThen, calls_spared 1 h]
  rcases hrun : x ⟨c.data, c.faults.drop 1⟩ with ⟨r, c'⟩
  rcases hexec : exec x c.data with ⟨r', d'⟩
  simp only [hrun, hexec] at hresult hdata hfaults
  subst hresult hdata
  rcases r with what | (a | a)
  · exact ⟨rfl, rfl, hfaults⟩
  · simp only [calls_spared 1 hfaults, true_and]
    exact fun hmem => hfaults (List.mem_of_mem_drop hmem)
  · exact ⟨rfl, rfl, hfaults⟩

end Sql

end EquipmentMonitoring
