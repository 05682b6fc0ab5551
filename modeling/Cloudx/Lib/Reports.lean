import Cloudx.Lib.Threads

/-! # What a thread reports

`Meets` speaks of the whole past of a thread. Most statements are about the part that one program adds
to it: `Adds` says that a program follows the rule, and what the events that it adds have to do with
its result. Sequences and loops then put these parts together.

The other way round, `Trace.since` goes from an event of a run to its end: what held after the event
holds in the end, unless an event in between may have broken it. -/

namespace Cloudx.Lib.Reports

open Cloudx.Lib.Fault Cloudx.Lib.Threads Cloudx.Lib.Threads.Thread

variable {σ ω ε α β : Type} {rule : Rule σ ω} {past : List ω} {x : Thread σ ω ε α}

/-- The thread follows the rule, and the events it adds to the past fit its end. -/
def Adds (rule : Rule σ ω) (P : List ω → Except ε α → Prop) (past : List ω)
    (x : Thread σ ω ε α) : Prop :=
  Meets rule (fun past' r => ∃ events, past' = past ++ events ∧ P events r) past x

/-- A property of the events of a thread that returns. -/
def Returning (P : List ω → α → Prop) : List ω → Except ε α → Prop := fun events r =>
  match r with
  | .ok a => P events a
  | .error _ => True

theorem Adds.mono {P Q : List ω → Except ε α → Prop} (hx : Adds rule P past x)
    (h : ∀ events r, P events r → Q events r) : Adds rule Q past x :=
  Meets.mono (fun _ r hr => by
    obtain ⟨events, he, hP⟩ := hr
    exact ⟨events, he, h events r hP⟩) hx

theorem adds_pure {P : List ω → Except ε α → Prop} {a : α} (h : P [] (.ok a)) :
    Adds rule P past (pure a) := ⟨[], (List.append_nil past).symm, h⟩

theorem adds_return {P : List ω → α → Prop} {a : α} (h : P [] a) :
    Adds rule (Returning P) past (pure a : Thread σ ω ε α) := adds_pure h

theorem adds_raise {P : List ω → Except ε α → Prop} {e : ε} (h : P [] (.error e)) :
    Adds rule P past (.raise e) := ⟨[], (List.append_nil past).symm, h⟩

theorem adds_lift {P : List ω → Except ε α → Prop} {y : Except ε α} (h : P [] y) :
    Adds rule P past (Thread.lift y) :=
  meets_lift ⟨[], (List.append_nil past).symm, h⟩

/-- **Sequences**: the events of the first part, then those of the second. -/
theorem Adds.bind {P : List ω → Except ε α → Prop} {Q : List ω → Except ε β → Prop}
    {f : α → Thread σ ω ε β} (hx : Adds rule P past x)
    (hf : ∀ events a, P events (.ok a) →
      Adds rule (fun more r => Q (events ++ more) r) (past ++ events) (f a))
    (he : ∀ events e, P events (.error e) → Q events (.error e)) :
    Adds rule Q past (x >>= f) := by
  refine Meets.bind (Meets.mono (fun past' r hr => ?_) hx)
  obtain ⟨events, rfl, hP⟩ := hr
  rcases r with e | a
  · exact ⟨events, rfl, he events e hP⟩
  · refine Meets.mono (fun past'' r hr => ?_) (hf events a hP)
    obtain ⟨more, rfl, hQ⟩ := hr
    exact ⟨events ++ more, List.append_assoc _ _ _, hQ⟩

/-- A sequence of which only what it reports when it returns matters. -/
theorem Adds.andThen {P : List ω → α → Prop} {Q : List ω → β → Prop} {f : α → Thread σ ω ε β}
    (hx : Adds rule (Returning P) past x)
    (hf : ∀ events a, P events a →
      Adds rule (Returning fun more b => Q (events ++ more) b) (past ++ events) (f a)) :
    Adds rule (Returning Q) past (x >>= f) :=
  hx.bind (fun events a h => (hf events a h).mono fun _ r hr => by
    rcases r with e | b
    · trivial
    · exact hr) fun _ _ _ => trivial

/-- One access. -/
theorem adds_atomically {P : List ω → Except ε α → Prop} {note : σ → σ → Option ω}
    {x : Act σ ε α} (h : ∀ s, rule past s (x s).2 (note s (x s).2) ∧
      P (note s (x s).2).toList (x s).1) : Adds rule P past (Thread.atomically note x) :=
  meets_atomically fun s => ⟨(h s).1, _, rfl, (h s).2⟩

/-- **A loop**: each element has its part of the events and its result. -/
theorem adds_each {R : α → List ω → β → Prop} {f : α → Thread σ ω ε β} :
    ∀ {as : List α} {past : List ω}, (∀ a ∈ as, ∀ events,
      Adds rule (Returning (R a)) (past ++ events) (f a)) →
      Adds rule (Returning fun events bs => ∃ parts : List (List ω × β),
        events = (parts.map Prod.fst).flatten ∧ bs = parts.map Prod.snd ∧
          List.Forall₂ (fun a part => R a part.1 part.2) as parts) past (Thread.each f as)
  | [], past, _ => adds_pure ⟨[], rfl, rfl, .nil⟩
  | a :: as, past, h => by
    have hfirst := h a List.mem_cons_self []
    rw [List.append_nil] at hfirst
    refine hfirst.andThen fun events b hb => ?_
    have hrest := @adds_each R f as (past ++ events) fun a' ha' more => by
      rw [List.append_assoc]
      exact h a' (List.mem_cons_of_mem a ha') (events ++ more)
    refine hrest.andThen fun more bs hbs => ?_
    obtain ⟨parts, rfl, rfl, hparts⟩ := hbs
    exact adds_pure ⟨(events, b) :: parts, by simp, rfl, .cons hb hparts⟩

/-- Runs a thread to its end, whatever the end is. -/
def attempt : Thread σ ω ε α → Thread σ ω ε (Except ε α)
  | .ret a => .ret (.ok a)
  | .raise e => .ret (.error e)
  | .access effect next => .access effect fun s => attempt (next s)

theorem meets_attempt {Q : List ω → Except ε α → Prop} :
    ∀ {x : Thread σ ω ε α} {past : List ω}, Meets rule Q past x →
      Meets rule (fun past r => ∃ y, r = .ok y ∧ Q past y) past (attempt x)
  | .ret a, _, hx => ⟨.ok a, rfl, hx⟩
  | .raise e, _, hx => ⟨.error e, rfl, hx⟩
  | .access _ _, _, hx => fun s => ⟨(hx s).1, meets_attempt (hx s).2⟩

/-- **A thread that is caught** goes on, whatever its end is. -/
theorem Adds.caught {P : List ω → Except ε α → Prop} {Q : List ω → Except ε β → Prop}
    {f : Except ε α → Thread σ ω ε β} (hx : Adds rule P past x)
    (hf : ∀ events y, P events y → Adds rule (fun more r => Q (events ++ more) r) (past ++ events) (f y)) :
    Adds rule Q past (attempt x >>= f) := by
  refine Meets.bind (Meets.mono (fun past' r hr => ?_) (meets_attempt hx))
  obtain ⟨y, rfl, events, rfl, hP⟩ := hr
  refine Meets.mono (fun past'' r hr => ?_) (hf events y hP)
  obtain ⟨more, rfl, hQ⟩ := hr
  exact ⟨events ++ more, List.append_assoc _ _ _, hQ⟩

/-! ### The moment of an event -/

/-- **When a thread reported an event**, the system was in a state that it reaches, with the events
before it, and the thread followed the rule. -/
theorem reported_at {outside : σ → σ → Option ω → Prop} {starts : Thread σ ω ε α → Prop} {first : σ}
    {c : System σ ω ε α} {Q : List ω → Except ε α → Prop}
    (hstarts : ∀ x, starts x → Meets rule Q [] x) (h : Reachable outside starts first c) :
    ∀ {before after : List (Source × ω)} {i : ℕ} {event : ω},
      c.history = before ++ (some i, event) :: after →
        ∃ c' s', Reachable outside starts first c' ∧ c'.history = before ∧
          rule (own (some i) before) c'.shared s' (some event) := by
  induction h with
  | refl => intro before after i event h; simp at h
  | @tail c c1 hreach hstep ih =>
    intro before after i event h
    cases hstep with
    | @outside s' e hout =>
      cases e with
      | none => exact ih ((List.append_nil _).symm.trans h)
      | some e =>
        rcases snoc_split h with ⟨-, hlast⟩ | ⟨rest, hrest⟩
        · cases hlast
        · exact ih hrest
    | start _ => exact ih h
    | @access j effect next hj =>
      have hrule := ((Reachable.trace hstarts hreach).1.meets j _ hj c.shared).1
      dsimp only at h
      rcases hevent : (effect c.shared).2 with _ | e
      · rw [hevent] at h
        exact ih ((List.append_nil _).symm.trans h)
      · rw [hevent] at h hrule
        rcases snoc_split h with ⟨rfl, hlast⟩ | ⟨rest, hrest⟩
        · cases hlast
          exact ⟨c, _, hreach, rfl, hrule⟩
        · exact ih hrest

/-! ### From an event to the end of a run -/

section

variable {outside : σ → σ → Option ω → Prop} {first : σ} {J : σ → Prop} {breaks : ω → Prop}
  {who : Source} {event : ω}

/-- An event that may break something. -/
def Harmful (breaks : ω → Prop) (event : Option ω) : Prop := ∃ e, event = some e ∧ breaks e

/-- **What held after an event still holds**, if nothing that may break it happened since. -/
theorem Trace.since (hevent : ∀ past s s', rule past s s' (some event) → J s')
    (hothers : ∀ s s' e, outside s s' e → ¬ Harmful breaks e → J s → J s')
    (hrule : ∀ past s s' e, rule past s s' e → ¬ Harmful breaks e → J s → J s') :
    ∀ {history : List (Source × ω)} {s : σ}, Trace outside rule first history s →
      ∀ {before after : List (Source × ω)} {i : ℕ}, history = before ++ (some i, event) :: after →
        (∃ x ∈ after, breaks x.2) ∨ J s := by
  intro history s h
  induction h with
  | start => intro before after i h; simp at h
  | @outside history s s' e htrace hout ih =>
    intro before after i h
    cases e with
    | none =>
      refine (ih ((List.append_nil _).symm.trans h)).imp_right (hothers _ _ _ hout ?_)
      rintro ⟨e, he, -⟩
      cases he
    | some e =>
      rcases snoc_split h with ⟨-, hlast⟩ | ⟨rest, hrest⟩
      · cases hlast
      have hafter : after = rest ++ [(none, e)] := by
        rw [hrest, List.append_assoc, List.cons_append] at h
        exact (List.cons.inj (List.append_cancel_left h)).2.symm
      by_cases hbreak : breaks e
      · exact .inl ⟨(none, e), by simp [hafter], hbreak⟩
      refine (ih hrest).imp (fun ⟨y, hy, hb⟩ => ⟨y, by simp [hafter, hy], hb⟩)
        (hothers _ _ _ hout ?_)
      rintro ⟨e', he, hb⟩
      cases he
      exact hbreak hb
  | @access history s s' e j htrace hr ih =>
    intro before after i h
    cases e with
    | none =>
      refine (ih ((List.append_nil _).symm.trans h)).imp_right (hrule _ _ _ _ hr ?_)
      rintro ⟨e, he, -⟩
      cases he
    | some e =>
      rcases snoc_split h with ⟨-, hlast⟩ | ⟨rest, hrest⟩
      · obtain ⟨-, rfl⟩ := Prod.mk.inj hlast
        exact .inr (hevent _ _ _ hr)
      have hafter : after = rest ++ [(some j, e)] := by
        rw [hrest, List.append_assoc, List.cons_append] at h
        exact (List.cons.inj (List.append_cancel_left h)).2.symm
      by_cases hbreak : breaks e
      · exact .inl ⟨(some j, e), by simp [hafter], hbreak⟩
      refine (ih hrest).imp (fun ⟨y, hy, hb⟩ => ⟨y, by simp [hafter, hy], hb⟩)
        (hrule _ _ _ _ hr ?_)
      rintro ⟨e', he, hb⟩
      cases he
      exact hbreak hb

end

end Cloudx.Lib.Reports
