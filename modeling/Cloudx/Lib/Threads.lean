import Cloudx.Lib.Fault
import Mathlib.Data.List.Forall2
import Mathlib.Logic.Function.Iterate
import Mathlib.Logic.Relation

/-! # Programs that run side by side

A thread returns, raises, or makes one access to a state that it shares: it sees the state, changes
it, may report an event, and goes on with what it has seen. Between two accesses everybody else may do
anything that the system allows.

`Meets` is what holds of a thread against every such interference, and `Trace` what is left of a
run when the threads are forgotten: the states, the events and who reported them. A system all of whose
threads meet a rule has a trace of that rule. -/

namespace Cloudx.Lib.Threads

open Cloudx.Lib.Fault

/-- A program over the shared state `σ` that reports events `ω`. -/
inductive Thread (σ ω ε α : Type) where
  | ret (a : α)
  | raise (e : ε)
  | access (effect : σ → σ × Option ω) (next : σ → Thread σ ω ε α)

variable {σ τ ω ε α β : Type}

namespace Thread

/-- Runs `x`, then `f` on its result; an error of `x` ends the thread. -/
def andThen (f : α → Thread σ ω ε β) : Thread σ ω ε α → Thread σ ω ε β
  | .ret a => f a
  | .raise e => .raise e
  | .access effect next => .access effect fun s => andThen f (next s)

instance : Monad (Thread σ ω ε) where
  pure := .ret
  bind x f := andThen f x

/-- One access that does `x`; `note` says what is reported, from the states before and after it. -/
def atomically (note : σ → σ → Option ω) (x : Act σ ε α) : Thread σ ω ε α :=
  .access (fun s => ((x s).2, note s (x s).2)) fun s =>
    match (x s).1 with
    | .ok a => .ret a
    | .error e => .raise e

/-- Nothing is reported. -/
def silent : σ → σ → Option ω := fun _ _ => none

/-- A look at the state; `note` says what is reported of it. -/
def look (note : σ → Option ω) (f : σ → Except ε α) : Thread σ ω ε α :=
  atomically (fun s _ => note s) fun s => (f s, s)

/-- A computation that does not touch the state. -/
def lift : Except ε α → Thread σ ω ε α
  | .ok a => .ret a
  | .error e => .raise e

/-- Runs `f` on the elements of a list, one after the other. -/
def each (f : α → Thread σ ω ε β) : List α → Thread σ ω ε (List β)
  | [] => pure []
  | a :: as => do
    let b ← f a
    let bs ← each f as
    pure (b :: bs)

/-- `try x finally f`, where `f` is one access. -/
def ensuring (f : σ → σ) : Thread σ ω ε α → Thread σ ω ε α
  | .ret a => .access (fun s => (f s, none)) fun _ => .ret a
  | .raise e => .access (fun s => (f s, none)) fun _ => .raise e
  | .access effect next => .access effect fun s => ensuring f (next s)

/-- A thread over a part of the state, whose events are not reported. -/
def zoom (part : σ → τ) (put : τ → σ → σ) {ω' : Type} : Thread τ ω' ε α → Thread σ ω ε α
  | .ret a => .ret a
  | .raise e => .raise e
  | .access effect next =>
    .access (fun s => (put (effect (part s)).1 s, none)) fun s => zoom part put (next (part s))

end Thread

/-! ### What a thread does against all interference -/

/-- What a thread may do at an access: the events it has reported, the states before and after, and the
event it reports. -/
abbrev Rule (σ ω : Type) := List ω → σ → σ → Option ω → Prop

variable {rule : Rule σ ω} {x : Thread σ ω ε α} {past : List ω}

/-- Every access follows the rule, whatever states it meets, and every end satisfies `Q`. -/
def Meets (rule : Rule σ ω) (Q : List ω → Except ε α → Prop) : List ω → Thread σ ω ε α → Prop
  | past, .ret a => Q past (.ok a)
  | past, .raise e => Q past (.error e)
  | past, .access effect next => ∀ s, rule past s (effect s).1 (effect s).2 ∧
      Meets rule Q (past ++ (effect s).2.toList) (next s)

theorem Meets.mono {Q Q' : List ω → Except ε α → Prop} (h : ∀ past r, Q past r → Q' past r) :
    ∀ {x : Thread σ ω ε α} {past : List ω}, Meets rule Q past x → Meets rule Q' past x
  | .ret _, _, hx => h _ _ hx
  | .raise _, _, hx => h _ _ hx
  | .access _ _, _, hx => fun s => ⟨(hx s).1, Meets.mono h (hx s).2⟩

/-- **Sequences**: the first thread ends where the second one starts. -/
theorem Meets.bind {Q : List ω → Except ε β → Prop} {f : α → Thread σ ω ε β} :
    ∀ {x : Thread σ ω ε α} {past : List ω}, Meets rule (fun past r => match r with
      | .ok a => Meets rule Q past (f a)
      | .error e => Q past (.error e)) past x → Meets rule Q past (x >>= f)
  | .ret _, _, hx => hx
  | .raise _, _, hx => hx
  | .access _ _, _, hx => fun s => ⟨(hx s).1, Meets.bind (hx s).2⟩

theorem meets_lift {Q : List ω → Except ε α → Prop} {y : Except ε α} (h : Q past y) :
    Meets rule Q past (Thread.lift y : Thread σ ω ε α) := by
  cases y <;> exact h

/-- One access. -/
theorem meets_atomically {Q : List ω → Except ε α → Prop} {note : σ → σ → Option ω} {x : Act σ ε α}
    (h : ∀ s, rule past s (x s).2 (note s (x s).2) ∧
      Q (past ++ (note s (x s).2).toList) (x s).1) :
    Meets rule Q past (Thread.atomically note x) := by
  intro s
  refine ⟨(h s).1, ?_⟩
  have hs := (h s).2
  dsimp only
  rcases hr : (x s).1 with e | a
  · rw [hr] at hs
    exact hs
  · rw [hr] at hs
    exact hs

/-- **A last access** that the rule allows at any time. -/
theorem Meets.ensuring {Q : List ω → Except ε α → Prop} {f : σ → σ}
    (hf : ∀ past s, rule past s (f s) none) :
    ∀ {x : Thread σ ω ε α} {past : List ω}, Meets rule Q past x →
      Meets rule Q past (Thread.ensuring f x)
  | .ret _, past, hx => fun s => ⟨hf past s, by rw [Option.toList_none, List.append_nil]; exact hx⟩
  | .raise _, past, hx => fun s => ⟨hf past s, by rw [Option.toList_none, List.append_nil]; exact hx⟩
  | .access _ _, _, hx => fun s => ⟨(hx s).1, Meets.ensuring hf (hx s).2⟩

/-- **A thread over another part of the state** does what the rule allows without an event. -/
theorem meets_zoom {part : σ → τ} {put : τ → σ → σ} {ω' : Type}
    (hput : ∀ t past s, rule past s (put t s) none) :
    ∀ (x : Thread τ ω' ε α) (past : List ω),
      Meets rule (fun past' _ => past' = past) past (Thread.zoom part put x)
  | .ret _, _ => rfl
  | .raise _, _ => rfl
  | .access _ next, past => fun s => ⟨hput _ past s, by
      rw [Option.toList_none, List.append_nil]
      exact meets_zoom hput (next (part s)) past⟩

/-- **A loop**: what holds of the past and the results so far is kept by every step, and each result
belongs to its element. -/
theorem meets_each {I : List ω → List β → Prop} {R : α → β → Prop} {E : List ω → ε → Prop}
    {f : α → Thread σ ω ε β} (hstep : ∀ a past bs, I past bs → Meets rule (fun past' r => match r with
      | .ok b => I past' (bs ++ [b]) ∧ R a b
      | .error e => E past' e) past (f a)) :
    ∀ (as : List α) {past : List ω} {bs : List β}, I past bs →
      Meets rule (fun past' r => match r with
        | .ok more => I past' (bs ++ more) ∧ List.Forall₂ R as more
        | .error e => E past' e) past (Thread.each f as)
  | [], past, bs, h => by
    show I past (bs ++ []) ∧ List.Forall₂ R [] []
    rw [List.append_nil]
    exact ⟨h, .nil⟩
  | a :: as, past, bs, h => by
    refine Meets.bind ((hstep a past bs h).mono fun past' r hr => ?_)
    rcases r with e | b
    · exact hr
    · refine Meets.bind ((meets_each hstep as hr.1).mono fun past'' r hr' => ?_)
      rcases r with e | more
      · exact hr'
      · show I past'' (bs ++ b :: more) ∧ List.Forall₂ R (a :: as) (b :: more)
        rw [List.append_cons]
        exact ⟨hr'.1, .cons hr.2 hr'.2⟩

/-! ### Systems -/

/-- Who reported an event: one of the threads, or nobody of them. -/
abbrev Source := Option ℕ

/-- A state of a system: the shared state, the threads as far as they have come, and the events. -/
structure System (σ ω ε α : Type) where
  shared : σ
  threads : List (Thread σ ω ε α)
  history : List (Source × ω)

/-- An event in the history. -/
def report (who : Source) (event : Option ω) : List (Source × ω) := event.toList.map (who, ·)

/-- The steps of a system: what happens outside, a new thread, and the next access of a thread. -/
inductive Step (outside : σ → σ → Option ω → Prop) (starts : Thread σ ω ε α → Prop) :
    System σ ω ε α → System σ ω ε α → Prop
  | outside {c : System σ ω ε α} {s' : σ} {event : Option ω} (h : outside c.shared s' event) :
    Step outside starts c { c with shared := s', history := c.history ++ report none event }
  | start {c : System σ ω ε α} {x : Thread σ ω ε α} (h : starts x) :
    Step outside starts c { c with threads := c.threads ++ [x] }
  | access {c : System σ ω ε α} {i : ℕ} {effect : σ → σ × Option ω} {next : σ → Thread σ ω ε α}
    (h : c.threads[i]? = some (.access effect next)) :
    Step outside starts c ⟨(effect c.shared).1, c.threads.set i (next c.shared),
      c.history ++ report (some i) (effect c.shared).2⟩

/-- The states that a system reaches from a state of the shared part, with no threads at first. -/
def Reachable (outside : σ → σ → Option ω → Prop) (starts : Thread σ ω ε α → Prop) (s : σ) :
    System σ ω ε α → Prop :=
  Relation.ReflTransGen (Step outside starts) ⟨s, [], []⟩

/-- The next access of a thread, if it makes one. -/
def advance (i : ℕ) (c : System σ ω ε α) : System σ ω ε α :=
  match c.threads[i]? with
  | some (.access effect next) => ⟨(effect c.shared).1, c.threads.set i (next c.shared),
      c.history ++ report (some i) (effect c.shared).2⟩
  | _ => c

theorem Reachable.advance {outside : σ → σ → Option ω → Prop} {starts : Thread σ ω ε α → Prop} {s : σ}
    (i : ℕ) : ∀ (k : ℕ) {c : System σ ω ε α}, Reachable outside starts s c →
      Reachable outside starts s ((advance i)^[k] c)
  | 0, _, h => h
  | k + 1, c, h => by
    refine Reachable.advance i k ?_
    unfold Threads.advance
    split
    · next effect next hi => exact h.tail (.access hi)
    · exact h

/-- The events of a source. -/
def own (who : Source) (history : List (Source × ω)) : List ω :=
  (history.filter (·.1 = who)).map Prod.snd

theorem own_append (who : Source) (h h' : List (Source × ω)) : own who (h ++ h') =
    own who h ++ own who h' := by
  simp [own]

@[simp] theorem own_report_self (who : Source) (event : Option ω) :
    own who (report who event) = event.toList := by
  cases event <;> simp [own, report]

theorem own_report_ne {who who' : Source} (h : who' ≠ who) (event : Option ω) :
    own who (report who' event) = [] := by
  cases event <;> simp [own, report, h]

/-- The runs of a rule, without the threads. -/
inductive Trace (outside : σ → σ → Option ω → Prop) (rule : Rule σ ω) (first : σ) :
    List (Source × ω) → σ → Prop
  | start : Trace outside rule first [] first
  | outside {history : List (Source × ω)} {s s' : σ} {event : Option ω}
    (before : Trace outside rule first history s) (h : outside s s' event) :
    Trace outside rule first (history ++ report none event) s'
  | access {history : List (Source × ω)} {s s' : σ} {event : Option ω} (i : ℕ)
    (before : Trace outside rule first history s) (h : rule (own (some i) history) s s' event) :
    Trace outside rule first (history ++ report (some i) event) s'

section

variable {outside : σ → σ → Option ω → Prop} {starts : Thread σ ω ε α → Prop} {first : σ}
  {c : System σ ω ε α} {Q : List ω → Except ε α → Prop}

/-- The threads of a system meet the rule, each with the events of its own, and the rest has none. -/
structure Sound (rule : Rule σ ω) (Q : List ω → Except ε α → Prop) (c : System σ ω ε α) : Prop where
  meets : ∀ i x, c.threads[i]? = some x → Meets rule Q (own (some i) c.history) x
  fresh : ∀ i, c.threads.length ≤ i → own (some i) c.history = []

theorem Sound.step {c' : System σ ω ε α} (hstarts : ∀ x, starts x → Meets rule Q [] x)
    (h : Sound rule Q c) (hstep : Step outside starts c c') : Sound rule Q c' := by
  cases hstep with
  | outside hout =>
    have hown : ∀ i event, own (some i) (c.history ++ report none event) = own (some i) c.history := by
      intro i event
      rw [own_append, own_report_ne (by simp), List.append_nil]
    exact ⟨fun i x hx => by rw [hown]; exact h.meets i x hx, fun i hi => by rw [hown]; exact h.fresh i hi⟩
  | start hx =>
    constructor
    · intro i y hy
      rw [List.getElem?_append] at hy
      split_ifs at hy with hi
      · exact h.meets i y hy
      · rw [h.fresh i (by omega)]
        have hmem := List.mem_of_getElem? hy
        rw [List.mem_singleton.mp hmem]
        exact hstarts _ hx
    · intro i hi
      rw [List.length_append] at hi
      exact h.fresh i (by omega)
  | @access i effect next hi =>
    have hthread := h.meets i _ hi c.shared
    constructor
    · intro j y hy
      by_cases hj : i = j
      · subst hj
        rw [List.getElem?_set_self (List.getElem?_eq_some_iff.mp hi).1] at hy
        cases hy
        rw [own_append, own_report_self]
        exact hthread.2
      · rw [List.getElem?_set_ne hj] at hy
        rw [own_append, own_report_ne (by simpa using hj), List.append_nil]
        exact h.meets j y hy
    · intro j hj
      rw [List.length_set] at hj
      have hij : i ≠ j := fun he => by
        have := (List.getElem?_eq_some_iff.mp hi).1
        omega
      rw [own_append, own_report_ne (by simpa using hij), List.append_nil]
      exact h.fresh j hj

/-- **Every run of a system is one of the rule** that its threads meet. -/
theorem Reachable.trace (hstarts : ∀ x, starts x → Meets rule Q [] x)
    (h : Reachable outside starts first c) :
    Sound rule Q c ∧ Trace outside rule first c.history c.shared := by
  induction h with
  | refl => exact ⟨⟨fun i x hx => by simp at hx, fun _ _ => rfl⟩, .start⟩
  | tail _ hstep ih =>
    obtain ⟨hsound, htrace⟩ := ih
    refine ⟨hsound.step hstarts hstep, ?_⟩
    cases hstep with
    | outside hout => exact .outside htrace hout
    | start _ => exact htrace
    | @access i effect next hi => exact .access i htrace (hsound.meets i _ hi _).1

/-- An element of a list that is one longer: the last one, or one before. -/
theorem snoc_split {γ : Type} {front before after : List γ} {last x : γ}
    (h : front ++ [last] = before ++ x :: after) :
    (front = before ∧ last = x) ∨ ∃ rest, front = before ++ x :: rest := by
  rcases List.eq_nil_or_concat after with rfl | ⟨rest, y, rfl⟩
  · obtain ⟨hfront, hlast⟩ := List.append_inj' h rfl
    exact .inl ⟨hfront, List.head_eq_of_cons_eq hlast⟩
  · rw [List.concat_eq_append, ← List.cons_append, ← List.append_assoc] at h
    exact .inr ⟨rest, (List.append_inj' h rfl).1⟩

/-- **The moment of an event**: a run up to it, and the step that reports it. -/
theorem Trace.moment {rule : Rule σ ω} {who : Source} {event : ω} :
    ∀ {history : List (Source × ω)} {s : σ}, Trace outside rule first history s →
      ∀ {before after : List (Source × ω)}, history = before ++ (who, event) :: after →
        ∃ t t', Trace outside rule first before t ∧ match who with
          | none => outside t t' (some event)
          | some i => rule (own (some i) before) t t' (some event)
  | _, _, .start, before, after, h => by simp at h
  | _, _, @Trace.outside _ _ _ _ _ _ _ _ none htrace _, before, after, h =>
    htrace.moment ((List.append_nil _).symm.trans h)
  | _, _, @Trace.access _ _ _ _ _ _ _ _ none _ htrace _, before, after, h =>
    htrace.moment ((List.append_nil _).symm.trans h)
  | _, _, @Trace.outside _ _ _ _ _ _ _ _ (some _) htrace hout, before, after, h => by
    rcases snoc_split h with ⟨rfl, hlast⟩ | ⟨rest, hrest⟩
    · cases hlast
      exact ⟨_, _, htrace, hout⟩
    · exact htrace.moment hrest
  | _, _, @Trace.access _ _ _ _ _ _ _ _ (some _) i htrace hrule, before, after, h => by
    rcases snoc_split h with ⟨rfl, hlast⟩ | ⟨rest, hrest⟩
    · cases hlast
      exact ⟨_, _, htrace, hrule⟩
    · exact htrace.moment hrest

end

end Cloudx.Lib.Threads
