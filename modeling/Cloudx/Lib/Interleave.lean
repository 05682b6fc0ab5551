import Cloudx.Lib.Fault
import Mathlib.Data.List.Forall2

/-! # Programs that share their state

A program makes accesses to a state that others change as well: before the access number `k` the
others take their step `others k`, which may be any function of the state. A run carries the state,
the number of accesses so far and a log of what happened, stamped with these numbers.

The question is always whether something seen at one access is still so at a later one. `Calm` says
that the others leave an observation alone between two accesses, and `Held` that a value seen then is
the present one unless they did not. -/

namespace Cloudx.Lib.Interleave

open Cloudx.Lib.Fault

variable {σ ω ε α β γ : Type}

/-- A run in progress. -/
structure Run (σ ω : Type) where
  world : σ
  tick : ℕ
  log : List ω

/-- One access: the others' step, then `x`; `note` says what is logged, from the number of the
access and the states before and after it. -/
def access (others : ℕ → σ → σ) (note : ℕ → σ → σ → List ω) (x : Act σ ε α) :
    Act (Run σ ω) ε α := fun r =>
  let w := others r.tick r.world
  ((x w).1, ⟨(x w).2, r.tick + 1, r.log ++ note r.tick w (x w).2⟩)

/-- Nothing is logged. -/
def silent : ℕ → σ → σ → List ω := fun _ _ _ => []

/-- Runs `f` on the elements of a list, one after the other. -/
def each (f : α → Act σ ε β) : List α → Act σ ε (List β)
  | [] => pure []
  | a :: as => do
    let b ← f a
    let bs ← each f as
    pure (b :: bs)

/-- A look at the state. -/
def observe (f : σ → Except ε α) : Act σ ε α := fun s => (f s, s)

/-- A computation that does not touch the state. -/
def lift : Except ε α → Act σ ε α
  | .ok a => .ret a
  | .error e => .raise e

section

variable {others : ℕ → σ → σ} {note : ℕ → σ → σ → List ω} {x : Act σ ε α} {r : Run σ ω}

@[simp] theorem access_tick : (access others note x r).2.tick = r.tick + 1 := rfl

@[simp] theorem access_world :
    (access others note x r).2.world = (x (others r.tick r.world)).2 := rfl

@[simp] theorem access_log : (access others note x r).2.log =
    r.log ++ note r.tick (others r.tick r.world) (x (others r.tick r.world)).2 := rfl

end

@[simp] theorem observe_run (f : σ → Except ε α) (s : σ) : observe f s = (f s, s) := rfl

@[simp] theorem lift_run (y : Except ε α) (s : σ) : lift y s = (y, s) := by
  cases y <;> rfl

/-! ### Invariants -/

/-- **What every step of a loop keeps, the loop keeps**, however it ends. -/
theorem each_keeps {I : σ → Prop} {f : α → Act σ ε β} :
    ∀ {as : List α}, (∀ a ∈ as, ∀ s, I s → I (f a s).2) → ∀ {s}, I s → I (each f as s).2
  | [], _, _, hs => hs
  | a :: as, h, s, hs => by
    have ha := h a List.mem_cons_self s hs
    rw [each, Act.bind_run]
    rcases hf : f a s with ⟨_ | b, s'⟩
    · rw [hf] at ha; exact ha
    · rw [hf] at ha
      have ih := each_keeps (fun a' ha' => h a' (List.mem_cons_of_mem a ha')) ha
      simp only [Act.bind_run]
      rcases hg : each f as s' with ⟨_ | bs, s''⟩
      · rw [hg] at ih; exact ih
      · rw [hg] at ih; exact ih

/-- **The results of a loop**: if each step keeps `I` and establishes `Q` of its argument and result,
and later steps keep that, it holds of all results at the end. -/
theorem each_spec {I : σ → Prop} {Q : α → β → σ → Prop} {f : α → Act σ ε β}
    (hinv : ∀ a s, I s → I (f a s).2)
    (hnew : ∀ a s b s', I s → f a s = (.ok b, s') → Q a b s')
    (hkeep : ∀ a b a' s, Q a b s → Q a b (f a' s).2) :
    ∀ {as : List α} {s s' : σ} {bs : List β}, I s → each f as s = (.ok bs, s') →
      List.Forall₂ (fun a b => Q a b s') as bs
  | [], s, s', bs, _, h => by
    obtain ⟨h1, -⟩ := Prod.mk.inj h
    rw [← Except.ok.inj h1]
    exact .nil
  | a :: as, s, s', bs, hI, h => by
    rw [each, Act.bind_run] at h
    rcases hf : f a s with ⟨_ | b, s1⟩
    · rw [hf] at h; exact absurd h (by simp)
    rw [hf] at h
    simp only [Act.bind_run] at h
    rcases hg : each f as s1 with ⟨_ | bs', s2⟩
    · rw [hg] at h; exact absurd h (by simp)
    rw [hg] at h
    simp only [Act.pure_run, Prod.mk.injEq, Except.ok.injEq] at h
    obtain ⟨rfl, rfl⟩ := h
    have hI1 : I s1 := by
      have := hinv a s hI
      rwa [hf] at this
    have hQ : Q a b (each f as s1).2 :=
      each_keeps (fun a' _ t ht => hkeep a b a' t ht) (hnew a s b s1 hI hf)
    rw [hg] at hQ
    exact .cons hQ (each_spec hinv hnew hkeep hI1 hg)

/-! ### What was seen is still so -/

variable {others : ℕ → σ → σ} {note : ℕ → σ → σ → List ω} {obs : σ → γ} {t : ℕ} {v : γ}
  {r : Run σ ω}

/-- The others' steps after the access `t` and before the access `n` leave the observation alone. -/
def Calm (others : ℕ → σ → σ) (obs : σ → γ) (t n : ℕ) : Prop :=
  ∀ k, t < k → k < n → ∀ w, obs (others k w) = obs w

/-- The value `v` observed at the access `t` is the present one, if the others were calm. -/
structure Held (others : ℕ → σ → σ) (obs : σ → γ) (t : ℕ) (v : γ) (r : Run σ ω) : Prop where
  before : t < r.tick
  value : Calm others obs t r.tick → obs r.world = v

theorem Calm.mono {n m : ℕ} (h : Calm others obs t m) (hn : n ≤ m) : Calm others obs t n :=
  fun k h1 h2 => h k h1 (by omega)

/-- What an access observes and does not change is held after it. -/
theorem held_access {x : Act σ ε α} (hv : obs (others r.tick r.world) = v)
    (hx : obs (x (others r.tick r.world)).2 = obs (others r.tick r.world)) :
    Held others obs r.tick v (access others note x r).2 :=
  ⟨by simp, fun _ => by rw [access_world, hx, hv]⟩

/-- **Accesses that do not change an observation keep what was seen of it.** -/
theorem Held.access {x : Act σ ε α} (h : Held others obs t v r)
    (hx : obs (x (others r.tick r.world)).2 = obs (others r.tick r.world)) :
    Held others obs t v (access others note x r).2 := by
  refine ⟨by have := h.before; simp; omega, fun hc => ?_⟩
  rw [access_tick] at hc
  rw [access_world, hx, hc r.tick h.before (by omega), h.value (hc.mono (by omega))]

/-- What is held is seen by the next access, if the others stay calm before it. -/
theorem Held.seen (h : Held others obs t v r) (hc : Calm others obs t (r.tick + 1)) :
    obs (others r.tick r.world) = v := by
  rw [hc r.tick h.before (by omega), h.value (hc.mono (by omega))]

end Cloudx.Lib.Interleave
