import Cloudx.Lib.Interleave
import Cloudx.Lib.Threads

/-! # A thread by itself

What a thread does when nobody else makes a step: a program over the state as in `Lib.Fault`, and the
events it reports. Such a run is one of every system that may start the thread (`reachable_alone`). -/

namespace Cloudx.Lib.Alone

open Cloudx.Lib.Fault Cloudx.Lib.Threads

variable {σ ω ε α β : Type}

/-- The run of a thread that nobody disturbs. -/
def alone : Thread σ ω ε α → Act σ ε α
  | .ret a => fun s => (.ok a, s)
  | .raise e => fun s => (.error e, s)
  | .access effect next => fun s => alone (next s) (effect s).1

/-- The events it reports. -/
def trail : Thread σ ω ε α → σ → List ω
  | .ret _, _ => []
  | .raise _, _ => []
  | .access effect next, s => (effect s).2.toList ++ trail (next s) (effect s).1

@[simp] theorem alone_pure (a : α) (s : σ) :
    alone (pure a : Thread σ ω ε α) s = (.ok a, s) := rfl

@[simp] theorem alone_raise (e : ε) (s : σ) :
    alone (.raise e : Thread σ ω ε α) s = (.error e, s) := rfl

theorem alone_bind (x : Thread σ ω ε α) (f : α → Thread σ ω ε β) :
    alone (x >>= f) = alone x >>= fun a => alone (f a) := by
  induction x with
  | ret a => rfl
  | raise e => rfl
  | access effect next ih =>
    funext s
    exact congrFun (ih s) (effect s).1

@[simp] theorem alone_atomically (note : σ → σ → Option ω) (x : Act σ ε α) :
    alone (Thread.atomically note x) = x := by
  funext s
  rw [Thread.atomically, alone]
  dsimp only
  rcases x s with ⟨e | a, s'⟩
  · rfl
  · rfl

@[simp] theorem alone_look (note : σ → Option ω) (f : σ → Except ε α) (s : σ) :
    alone (Thread.look note f) s = (f s, s) := by
  exact congrFun (alone_atomically (fun s _ => note s) fun s => (f s, s)) s

@[simp] theorem alone_lift (y : Except ε α) (s : σ) :
    alone (Thread.lift y : Thread σ ω ε α) s = (y, s) := by
  cases y with
  | ok a => rfl
  | error e => rfl

/-- A loop by itself. -/
theorem alone_each (f : α → Thread σ ω ε β) (as : List α) :
    alone (Thread.each f as) = Interleave.each (fun a => alone (f a)) as := by
  induction as with
  | nil => rfl
  | cons a as ih =>
    rw [Thread.each, Interleave.each, alone_bind]
    congr 1
    funext b
    rw [alone_bind, ih]
    rfl

/-- A thread that has ended. -/
def ended : Except ε α → Thread σ ω ε α
  | .ok a => .ret a
  | .error e => .raise e

variable {outside : σ → σ → Option ω → Prop} {starts : Thread σ ω ε α → Prop}

theorem reachable_steps {first : σ} (x : Thread σ ω ε α) :
    ∀ {s : σ} {history : List (Source × ω)}, Reachable outside starts first ⟨s, [x], history⟩ →
      Reachable outside starts first
        ⟨(alone x s).2, [ended (alone x s).1], history ++ (trail x s).map (some 0, ·)⟩ := by
  induction x with
  | ret a =>
    intro s history h
    rw [show (trail (.ret a : Thread σ ω ε α) s).map (some 0, ·) = [] from rfl, List.append_nil]
    exact h
  | raise e =>
    intro s history h
    rw [show (trail (.raise e : Thread σ ω ε α) s).map (some 0, ·) = [] from rfl, List.append_nil]
    exact h
  | access effect next ih =>
    intro s history h
    have hstep : Step outside starts ⟨s, [.access effect next], history⟩
        ⟨(effect s).1, [next s], history ++ report (some 0) (effect s).2⟩ :=
      @Step.access _ _ _ _ outside starts ⟨s, [.access effect next], history⟩ 0 effect next rfl
    have hrest := ih s (h.tail hstep)
    rwa [List.append_assoc, report, ← List.map_append] at hrest

/-- **A run by itself is one of the system.** -/
theorem reachable_alone {x : Thread σ ω ε α} (hx : starts x) (s : σ) :
    Reachable outside starts s
      ⟨(alone x s).2, [ended (alone x s).1], (trail x s).map (some 0, ·)⟩ := by
  have hstart : Reachable outside starts s ⟨s, [x], []⟩ :=
    .single (Step.start (c := ⟨s, [], []⟩) hx)
  exact reachable_steps x hstart

end Cloudx.Lib.Alone
