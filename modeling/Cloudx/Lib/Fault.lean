import Mathlib.Data.Nat.Notation
import Mathlib.Tactic.SplitIfs

/-! # Actions that keep their effects when they fail

`Act σ ε α` is a program over a state `σ` that returns an `α` or raises an `ε`. What it did to the
state before it raised stays done: nothing is rolled back unless the program does so itself. `step`
marks one of its steps; a *fault plan* `fails : τ → Bool` says which steps fail, and a step that
fails raises its error before it has any effect. Running one program under every fault plan is how
its behaviour under failures is stated; `only t` is the plan in which one step fails. -/

namespace Cloudx.Lib.Fault

/-- A program over the state `σ` with results in `α` and errors in `ε`. -/
def Act (σ ε α : Type) := σ → Except ε α × σ

variable {σ ε α β τ : Type}

namespace Act

/-- Returns `a`. -/
def ret (a : α) : Act σ ε α := fun s => (.ok a, s)

/-- Runs `x`, then `f` on its result; an error of `x` ends the program. -/
def andThen (x : Act σ ε α) (f : α → Act σ ε β) : Act σ ε β := fun s =>
  match x s with
  | (.ok a, s') => f a s'
  | (.error e, s') => (.error e, s')

instance : Monad (Act σ ε) where
  pure := ret
  bind := andThen

/-- Raises `e`. -/
def raise (e : ε) : Act σ ε α := fun s => (.error e, s)

/-- The current state. -/
def get : Act σ ε σ := fun s => (.ok s, s)

/-- Changes the state. -/
def modify (f : σ → σ) : Act σ ε Unit := fun s => (.ok (), f s)

/-- `try x except e: h e`. -/
def except (x : Act σ ε α) (h : ε → Act σ ε α) : Act σ ε α := fun s =>
  match x s with
  | (.ok a, s') => (.ok a, s')
  | (.error e, s') => h e s'

/-- `try x finally f`, where `f` cannot fail. -/
def ensuring (x : Act σ ε α) (f : σ → σ) : Act σ ε α := fun s => ((x s).1, f (x s).2)

/-- One step of a program under a fault plan. -/
def step (fails : τ → Bool) (t : τ) (e : ε) (x : Act σ ε α) : Act σ ε α := fun s =>
  if fails t then (.error e, s) else x s

/-! ### Running -/

@[simp] theorem pure_run (a : α) (s : σ) : (pure a : Act σ ε α) s = (.ok a, s) := rfl

@[simp] theorem raise_run (e : ε) (s : σ) : (raise e : Act σ ε α) s = (.error e, s) := rfl

@[simp] theorem get_run (s : σ) : (get : Act σ ε σ) s = (.ok s, s) := rfl

@[simp] theorem modify_run (f : σ → σ) (s : σ) : (modify f : Act σ ε Unit) s = (.ok (), f s) := rfl

theorem bind_run (x : Act σ ε α) (f : α → Act σ ε β) (s : σ) :
    (x >>= f) s = match x s with
      | (.ok a, s') => f a s'
      | (.error e, s') => (.error e, s') := rfl

theorem bind_ok {x : Act σ ε α} {f : α → Act σ ε β} {s s' : σ} {a : α} (h : x s = (.ok a, s')) :
    (x >>= f) s = f a s' := by
  rw [bind_run, h]

theorem bind_error {x : Act σ ε α} {f : α → Act σ ε β} {s s' : σ} {e : ε}
    (h : x s = (.error e, s')) : (x >>= f) s = (.error e, s') := by
  rw [bind_run, h]

/-- A sequence that returns has run both its parts. -/
theorem bind_eq_ok {x : Act σ ε α} {f : α → Act σ ε β} {s s' : σ} {b : β} :
    (x >>= f) s = (.ok b, s') ↔ ∃ a t, x s = (.ok a, t) ∧ f a t = (.ok b, s') := by
  rw [bind_run]
  rcases x s with ⟨e | a, t⟩
  · constructor
    · intro h; cases h
    · rintro ⟨_, _, h, -⟩; cases h
  · constructor
    · intro h; exact ⟨a, t, rfl, h⟩
    · rintro ⟨_, _, h, h'⟩; cases h; exact h'

theorem except_ok {x : Act σ ε α} {h : ε → Act σ ε α} {s s' : σ} {a : α} (hx : x s = (.ok a, s')) :
    x.except h s = (.ok a, s') := by
  rw [except, hx]

theorem except_error {x : Act σ ε α} {h : ε → Act σ ε α} {s s' : σ} {e : ε}
    (hx : x s = (.error e, s')) : x.except h s = h e s' := by
  rw [except, hx]

theorem step_ok {fails : τ → Bool} {t : τ} (h : fails t = false) (e : ε) (x : Act σ ε α) (s : σ) :
    step fails t e x s = x s := by
  simp [step, h]

theorem step_fail {fails : τ → Bool} {t : τ} (h : fails t = true) (e : ε) (x : Act σ ε α) (s : σ) :
    step fails t e x s = (.error e, s) := by
  simp [step, h]

/-- A step that returns has not failed. -/
theorem step_eq_ok {fails : τ → Bool} {t : τ} {e : ε} {x : Act σ ε α} {s s' : σ} {a : α} :
    step fails t e x s = (.ok a, s') ↔ fails t = false ∧ x s = (.ok a, s') := by
  rcases ht : fails t with _ | _
  · rw [step_ok ht, and_iff_right rfl]
  · rw [step_fail ht]
    constructor
    · intro h; cases h
    · rintro ⟨h, -⟩; cases h

/-! ### Parts of the state that stay -/

/-- Whether it returns or raises, the program leaves this part of the state as it is. -/
def Frames {γ : Type} (part : σ → γ) (x : Act σ ε α) : Prop := ∀ s, part (x s).2 = part s

section

variable {γ : Type} {part : σ → γ}

theorem frames_pure (a : α) : Frames part (pure a : Act σ ε α) := fun _ => rfl

theorem frames_raise (e : ε) : Frames part (raise e : Act σ ε α) := fun _ => rfl

theorem frames_get : Frames part (get : Act σ ε σ) := fun _ => rfl

theorem frames_modify {f : σ → σ} (h : ∀ s, part (f s) = part s) :
    Frames part (modify f : Act σ ε Unit) := h

theorem frames_step {fails : τ → Bool} {t : τ} {e : ε} {x : Act σ ε α} (h : Frames part x) :
    Frames part (step fails t e x) := by
  intro s
  unfold step
  split_ifs
  · rfl
  · exact h s

theorem frames_bind {x : Act σ ε α} {f : α → Act σ ε β} (hx : Frames part x)
    (hf : ∀ a, Frames part (f a)) : Frames part (x >>= f) := by
  intro s
  rw [bind_run, ← hx s]
  rcases x s with ⟨_ | a, s'⟩
  · rfl
  · exact hf a s'

theorem frames_except {x : Act σ ε α} {h : ε → Act σ ε α} (hx : Frames part x)
    (hh : ∀ e, Frames part (h e)) : Frames part (x.except h) := by
  intro s
  unfold Act.except
  rw [← hx s]
  rcases x s with ⟨e | a, s'⟩
  · exact hh e s'
  · rfl

end

end Act

/-! ### Plans with no or one failing step -/

/-- The plan in which no step fails. -/
def steady : τ → Bool := fun _ => false

/-- The plan in which exactly the step `t` fails. -/
def only [DecidableEq τ] (t : τ) : τ → Bool := fun s => decide (s = t)

theorem only_self [DecidableEq τ] (t : τ) : only t t = true := decide_eq_true rfl

theorem only_ne [DecidableEq τ] {s t : τ} (h : s ≠ t) : only t s = false := decide_eq_false h

end Cloudx.Lib.Fault
