import Mathlib.Logic.Function.Basic
import Mathlib.Logic.Relation

/-!
# Programs that Ask Their Environment

A program is a tree: it has ended with a result or an exception, or it asks its environment
something and goes on with what it is told, an answer or an exception. A program can run alone,
or its requests can be interleaved with those of other programs over one state.

## Key Results

- `run_andThen`: a program run alone, part by part
- `ensures_andThen`, `ensures_mono`: what a program ensures among others, part by part
- `RelyGuarantee.run_ensures`: programs that keep to their guarantees while they rely on each
  other's end, in every interleaving, as each of them ensures
-/

namespace EquipmentMonitoring

/-- A program that has ended, or asks `request` and goes on with `next`. -/
inductive Program (Req : Type) (Ans : Req → Type) (ε α : Type) where
  | done (result : Except ε α)
  | ask (request : Req) (next : Except ε (Ans request) → Program Req Ans ε α)

namespace Program

variable {Req : Type} {Ans : Req → Type} {ε α β σ : Type}

/-! ## Composition -/

/-- Go on from the end of a program, whether it has returned or raised. -/
def andThen : Program Req Ans ε α → (Except ε α → Program Req Ans ε β) → Program Req Ans ε β
  | done result, f => f result
  | ask request next, f => ask request fun answer => (next answer).andThen f

def raise (error : ε) : Program Req Ans ε α := done (.error error)

def request (r : Req) : Program Req Ans ε (Ans r) := ask r done

/-- How an exception passes by what follows. -/
def ifOk (f : α → Program Req Ans ε β) : Except ε α → Program Req Ans ε β
  | .ok a => f a
  | .error error => raise error

/-- How a result passes by a handler. -/
def ifError (handler : ε → Program Req Ans ε α) : Except ε α → Program Req Ans ε α
  | .ok a => done (.ok a)
  | .error error => handler error

instance : Monad (Program Req Ans ε) where
  pure a := done (.ok a)
  bind p f := p.andThen (ifOk f)

/-- `try p except: handler`. -/
def handled (p : Program Req Ans ε α) (handler : ε → Program Req Ans ε α) : Program Req Ans ε α :=
  p.andThen (ifError handler)

theorem pure_def (a : α) : (pure a : Program Req Ans ε α) = done (.ok a) := rfl

@[simp] theorem ifOk_ok (f : α → Program Req Ans ε β) (a : α) : ifOk f (.ok a) = f a := rfl

@[simp] theorem ifOk_error (f : α → Program Req Ans ε β) (error : ε) :
    ifOk f (.error error) = raise error := rfl

@[simp] theorem ifError_ok (handler : ε → Program Req Ans ε α) (a : α) :
    ifError handler (.ok a) = done (.ok a) := rfl

@[simp] theorem ifError_error (handler : ε → Program Req Ans ε α) (error : ε) :
    ifError handler (.error error) = handler error := rfl

/-! ## Alone -/

/-- Run to the end; `perform` has no answer where the request has to wait. -/
def run (perform : (r : Req) → σ → Option (Except ε (Ans r) × σ)) :
    Program Req Ans ε α → σ → Option (Except ε α × σ)
  | done result, s => some (result, s)
  | ask request next, s => (perform request s).bind fun x => (next x.1).run perform x.2

variable {perform : (r : Req) → σ → Option (Except ε (Ans r) × σ)}

@[simp] theorem run_done (result : Except ε α) (s : σ) :
    (done result : Program Req Ans ε α).run perform s = some (result, s) := rfl

@[simp] theorem run_pure (a : α) (s : σ) :
    (pure a : Program Req Ans ε α).run perform s = some (.ok a, s) := rfl

@[simp] theorem run_raise (error : ε) (s : σ) :
    (raise error : Program Req Ans ε α).run perform s = some (.error error, s) := rfl

theorem run_andThen (p : Program Req Ans ε α) (f : Except ε α → Program Req Ans ε β) (s : σ) :
    (p.andThen f).run perform s = (p.run perform s).bind fun x => (f x.1).run perform x.2 := by
  induction p generalizing s with
  | done result => rfl
  | ask request next ih =>
    simp only [andThen, run, Option.bind_assoc]
    exact congrArg _ (funext fun x => ih x.1 x.2)

theorem run_request (r : Req) (s : σ) :
    (request r : Program Req Ans ε (Ans r)).run perform s = perform r s := by
  simp only [request, run]
  cases perform r s <;> rfl

section Parts

variable {p : Program Req Ans ε α} {s s' : σ} {a : α} {error : ε}

/-- The rest runs from where its first part has ended. -/
theorem run_andThen_of {f : Except ε α → Program Req Ans ε β} {result : Except ε α}
    (h : p.run perform s = some (result, s')) :
    (p.andThen f).run perform s = (f result).run perform s' := by
  rw [run_andThen, h]
  rfl

theorem run_bind_ok {f : α → Program Req Ans ε β} (h : p.run perform s = some (.ok a, s')) :
    (p >>= f).run perform s = (f a).run perform s' := run_andThen_of h

theorem run_bind_error {f : α → Program Req Ans ε β}
    (h : p.run perform s = some (.error error, s')) :
    (p >>= f).run perform s = some (.error error, s') := run_andThen_of h

theorem run_handled_ok {handler : ε → Program Req Ans ε α}
    (h : p.run perform s = some (.ok a, s')) :
    (p.handled handler).run perform s = some (.ok a, s') := run_andThen_of h

theorem run_handled_error {handler : ε → Program Req Ans ε α}
    (h : p.run perform s = some (.error error, s')) :
    (p.handled handler).run perform s = (handler error).run perform s' := run_andThen_of h

end Parts

/-! ## Among Others -/

section Ensures

variable (rely guarantee : σ → σ → Prop)
  (step : (r : Req) → σ → Except ε (Ans r) → σ → Prop)

/-- From `s` on, whatever the others do within `rely`, each step of the program is within
`guarantee`, and it ends as `post` says. -/
def Ensures : Program Req Ans ε α → (Except ε α → σ → Prop) → σ → Prop
  | done result, post, s => post result s
  | ask request next, post, s => ∀ s', rely s s' → ∀ answer s'', step request s' answer s'' →
      guarantee s' s'' ∧ (next answer).Ensures post s''

variable {rely guarantee step} {p : Program Req Ans ε α} {post post' : Except ε α → σ → Prop}
  {s s' : σ}

@[simp] theorem ensures_pure (a : α) :
    (pure a : Program Req Ans ε α).Ensures rely guarantee step post s ↔ post (.ok a) s := Iff.rfl

@[simp] theorem ensures_raise (error : ε) :
    (raise error : Program Req Ans ε α).Ensures rely guarantee step post s ↔
      post (.error error) s := Iff.rfl

theorem ensures_andThen {q : Except ε β → σ → Prop} {f : Except ε α → Program Req Ans ε β} :
    (p.andThen f).Ensures rely guarantee step q s ↔
      p.Ensures rely guarantee step (fun result => (f result).Ensures rely guarantee step q) s := by
  induction p generalizing s with
  | done result => rfl
  | ask request next ih =>
    simp only [andThen, Ensures, ih]

theorem ensures_mono (h : p.Ensures rely guarantee step post s)
    (hpost : ∀ result s', post result s' → post' result s') :
    p.Ensures rely guarantee step post' s := by
  induction p generalizing s with
  | done result => exact hpost result s h
  | ask request next ih =>
    intro s' hrely answer s'' hstep
    obtain ⟨hguarantee, hnext⟩ := h s' hrely answer s'' hstep
    exact ⟨hguarantee, ih answer hnext⟩

theorem ensures_bind {q : Except ε β → σ → Prop} {f : α → Program Req Ans ε β}
    (h : p.Ensures rely guarantee step
      (fun result => (ifOk f result).Ensures rely guarantee step q) s) :
    (p >>= f).Ensures rely guarantee step q s := ensures_andThen.mpr h

/-- The others cannot undo what a program ensures. -/
theorem ensures_rely (htrans : ∀ a b c, rely a b → rely b c → rely a c)
    (hpost : ∀ result a b, rely a b → post result a → post result b)
    (h : p.Ensures rely guarantee step post s) (hrely : rely s s') :
    p.Ensures rely guarantee step post s' := by
  cases p with
  | done result => exact hpost result s s' hrely h
  | ask request next =>
    intro s₁ h₁ answer s₂ hstep
    exact h s₁ (htrans _ _ _ hrely h₁) answer s₂ hstep

end Ensures

/-! ## Threads -/

variable {ι : Type} {αs : ι → Type}

/-- The state that all programs share, and what is left of each program. -/
structure Threads (Req : Type) (Ans : Req → Type) (ε : Type) (αs : ι → Type) (σ : Type) where
  state : σ
  programs : (i : ι) → Program Req Ans ε (αs i)

namespace Threads

variable [DecidableEq ι]

/-- One program takes one step. -/
inductive Step (step : ι → (r : Req) → σ → Except ε (Ans r) → σ → Prop) :
    Threads Req Ans ε αs σ → Threads Req Ans ε αs σ → Prop where
  | ask {t : Threads Req Ans ε αs σ} {i : ι} {r : Req} {next} {answer : Except ε (Ans r)} {s' : σ}
      (hask : t.programs i = .ask r next) (hstep : step i r t.state answer s') :
      Step step t ⟨s', Function.update t.programs i (next answer)⟩

/-- Any number of steps, in any order of the programs. -/
def Run (step : ι → (r : Req) → σ → Except ε (Ans r) → σ → Prop) :
    Threads Req Ans ε αs σ → Threads Req Ans ε αs σ → Prop :=
  Relation.ReflTransGen (Step step)

/-- The step of program `i`, unless it has ended or has to wait. -/
def advance (perform : ι → (r : Req) → σ → Option (Except ε (Ans r) × σ))
    (t : Threads Req Ans ε αs σ) (i : ι) : Option (Threads Req Ans ε αs σ) :=
  match t.programs i with
  | .done _ => none
  | .ask r next => (perform i r t.state).map fun x =>
      ⟨x.2, Function.update t.programs i (next x.1)⟩

/-- A run in the order of `schedule`. -/
def follow (perform : ι → (r : Req) → σ → Option (Except ε (Ans r) × σ)) :
    List ι → Threads Req Ans ε αs σ → Option (Threads Req Ans ε αs σ)
  | [], t => some t
  | i :: schedule, t => (t.advance perform i).bind (follow perform schedule)

theorem run_of_follow {perform : ι → (r : Req) → σ → Option (Except ε (Ans r) × σ)}
    {step : ι → (r : Req) → σ → Except ε (Ans r) → σ → Prop}
    (h : ∀ i r s answer s', perform i r s = some (answer, s') → step i r s answer s')
    {schedule : List ι} {t t' : Threads Req Ans ε αs σ}
    (hfollow : follow perform schedule t = some t') : Run step t t' := by
  induction schedule generalizing t with
  | nil =>
    obtain rfl := Option.some.inj hfollow
    exact .refl
  | cons i schedule ih =>
    obtain ⟨t₁, hadvance, hrest⟩ := Option.bind_eq_some_iff.mp hfollow
    -- what one thread does next is one step of the system
    refine .head ?_ (ih hrest)
    unfold advance at hadvance
    split at hadvance
    · simp at hadvance
    · next r next hask =>
      obtain ⟨⟨answer, s'⟩, hperform, rfl⟩ := Option.map_eq_some_iff.mp hadvance
      exact .ask hask (h i r _ answer s' hperform)

/-- All programs have ended. -/
def Ended (t : Threads Req Ans ε αs σ) : Prop := ∀ i, ∃ result, t.programs i = .done result

end Threads

/-- What each program expects of the others' steps, and promises about its own; `keeps` is what
every step preserves. -/
structure RelyGuarantee (ι σ : Type) where
  rely : ι → σ → σ → Prop
  guarantee : ι → σ → σ → Prop
  keeps : σ → Prop
  rely_refl : ∀ i s, rely i s s
  rely_trans : ∀ i a b c, rely i a b → rely i b c → rely i a c
  covered : ∀ i j, i ≠ j → ∀ s s', keeps s → guarantee i s s' → rely j s s'
  keeping : ∀ i s s', keeps s → guarantee i s s' → keeps s'

namespace RelyGuarantee

variable [DecidableEq ι] (discipline : RelyGuarantee ι σ)
  {step : ι → (r : Req) → σ → Except ε (Ans r) → σ → Prop}
  {post : (i : ι) → Except ε (αs i) → σ → Prop} {t t' : Threads Req Ans ε αs σ}

/-- Every program ensures its postcondition from here. -/
def Kept (step : ι → (r : Req) → σ → Except ε (Ans r) → σ → Prop)
    (post : (i : ι) → Except ε (αs i) → σ → Prop) (t : Threads Req Ans ε αs σ) : Prop :=
  discipline.keeps t.state ∧ ∀ i, (t.programs i).Ensures (discipline.rely i)
    (discipline.guarantee i) (step i) (post i) t.state

variable {discipline}

theorem step_kept (hpost : ∀ i result a b, discipline.rely i a b → post i result a → post i result b)
    (hkept : discipline.Kept step post t) (hstep : Threads.Step step t t') :
    discipline.Kept step post t' := by
  obtain ⟨hkeeps, hensures⟩ := hkept
  cases hstep with
  | @ask i r next answer s' hask hstep =>
    have hown := hensures i
    rw [hask] at hown
    obtain ⟨hguarantee, hnext⟩ := hown t.state (discipline.rely_refl i t.state) answer s' hstep
    refine ⟨discipline.keeping i _ _ hkeeps hguarantee, fun j => ?_⟩
    by_cases hj : j = i
    · -- the thread that moved keeps what the rest of its program ensures
      subst hj
      simpa using hnext
    · simp only [Function.update_of_ne hj]
      -- Every other thread sees the move as a step it relies on.
      have hrely := discipline.covered i j (Ne.symm hj) _ _ hkeeps hguarantee
      exact ensures_rely (discipline.rely_trans j) (hpost j) (hensures j) hrely

theorem run_kept (hpost : ∀ i result a b, discipline.rely i a b → post i result a → post i result b)
    (hkept : discipline.Kept step post t) (hrun : Threads.Run step t t') :
    discipline.Kept step post t' := by
  induction hrun with
  | refl => exact hkept
  | tail _ hstep ih => exact step_kept hpost ih hstep

/-- Where all programs have ended, what each of them ensures holds. -/
theorem run_ensures
    (hpost : ∀ i result a b, discipline.rely i a b → post i result a → post i result b)
    (hkept : discipline.Kept step post t) (hrun : Threads.Run step t t') (hended : t'.Ended) :
    discipline.keeps t'.state ∧ ∀ i, ∃ result, post i result t'.state := by
  obtain ⟨hkeeps, hensures⟩ := run_kept hpost hkept hrun
  refine ⟨hkeeps, fun i => ?_⟩
  obtain ⟨result, hdone⟩ := hended i
  have hensured := hensures i
  rw [hdone] at hensured
  exact ⟨result, hensured⟩

end RelyGuarantee

end Program

end EquipmentMonitoring
