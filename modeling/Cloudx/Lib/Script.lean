import Cloudx.Lib.Fault

/-! # Scripts of requests

A client works through a script. At each turn it has some results at hand, or gives up, or asks a
server and takes a result from the answer. The script is there before the first answer, and an answer
only decides whether the client goes on. What it has asked stays asked when it gives up later.

`heard` is what passes between the two, and `Agreed` says that the client reaches the end. -/

namespace Cloudx.Lib.Script

open Cloudx.Lib.Fault

variable {Q A σ ε β : Type}

/-- A server: its answer to a request, and what it has become. -/
abbrev Server (Q A σ : Type) := Q → σ → A × σ

/-- One turn of a client. -/
inductive Turn (Q A ε β : Type) where
  | give (found : List β)
  | stop (e : ε)
  | ask (q : Q) (accept : A → Except ε β)

/-- The client at work. -/
def play (serve : Server Q A σ) : List (Turn Q A ε β) → Act σ ε (List β)
  | [] => pure []
  | .give found :: rest => do
    let more ← play serve rest
    return found ++ more
  | .stop e :: _ => Act.raise e
  | .ask q accept :: rest => fun s =>
    match accept (serve q s).1 with
    | .error e => (.error e, (serve q s).2)
    | .ok b => (do
        let more ← play serve rest
        return b :: more : Act σ ε (List β)) (serve q s).2

/-- The requests that are made, each with its answer. -/
def heard (serve : Server Q A σ) : List (Turn Q A ε β) → σ → List (Q × A)
  | [], _ => []
  | .give _ :: rest, s => heard serve rest s
  | .stop _ :: _, _ => []
  | .ask q accept :: rest, s =>
    (q, (serve q s).1) :: match accept (serve q s).1 with
      | .error _ => []
      | .ok _ => heard serve rest (serve q s).2

/-- Whether a request is made before anything is given up. -/
def asks : List (Turn Q A ε β) → Bool
  | [] => false
  | .give _ :: rest => asks rest
  | .stop _ :: _ => false
  | .ask _ _ :: _ => true

/-- The client reaches the end of its script, and has found these. -/
inductive Agreed (serve : Server Q A σ) : List (Turn Q A ε β) → σ → List β → Prop
  | nil (s : σ) : Agreed serve [] s []
  | give {found more : List β} {rest : List (Turn Q A ε β)} {s : σ} (h : Agreed serve rest s more) :
      Agreed serve (.give found :: rest) s (found ++ more)
  | ask {q : Q} {accept : A → Except ε β} {b : β} {more : List β} {rest : List (Turn Q A ε β)} {s : σ}
      (hb : accept (serve q s).1 = .ok b) (h : Agreed serve rest (serve q s).2 more) :
      Agreed serve (.ask q accept :: rest) s (b :: more)

/-- A server that keeps a record of its answers. -/
def logged (serve : Server Q A σ) : Server Q A (σ × List (Q × A)) := fun q s =>
  ((serve q s.1).1, (serve q s.1).2, s.2 ++ [(q, (serve q s.1).1)])

variable {serve : Server Q A σ}

/-! ### One turn -/

theorem play_give (found : List β) (rest : List (Turn Q A ε β)) :
    play serve (.give found :: rest) = (do
      let more ← play serve rest
      return found ++ more) := rfl

theorem play_ask_error {q : Q} {accept : A → Except ε β} {rest : List (Turn Q A ε β)} {s : σ} {e : ε}
    (h : accept (serve q s).1 = .error e) :
    play serve (.ask q accept :: rest) s = (.error e, (serve q s).2) := by
  simp only [play, h]

theorem play_ask_ok {q : Q} {accept : A → Except ε β} {rest : List (Turn Q A ε β)} {s : σ} {b : β}
    (h : accept (serve q s).1 = .ok b) : play serve (.ask q accept :: rest) s = (do
      let more ← play serve rest
      return b :: more : Act σ ε (List β)) (serve q s).2 := by
  simp only [play, h]

/-! ### The record of a run -/

/-- **The record grows by what is heard**, and is not looked at. -/
theorem play_logged : ∀ (turns : List (Turn Q A ε β)) (s : σ) (log : List (Q × A)),
    play (logged serve) turns (s, log) =
      ((play serve turns s).1, (play serve turns s).2, log ++ heard serve turns s)
  | [], s, log => by
    rw [heard, List.append_nil]
    rfl
  | .give found :: rest, s, log => by
    rw [play_give, play_give, heard, Act.bind_run, Act.bind_run, play_logged rest s log]
    rcases play serve rest s with ⟨e | more, t⟩
    · rfl
    · rfl
  | .stop e :: rest, s, log => by
    rw [heard, List.append_nil]
    rfl
  | .ask q accept :: rest, s, log => by
    rcases haccept : accept (serve q s).1 with e | b
    · rw [play_ask_error haccept, heard, haccept]
      exact play_ask_error haccept
    · have hlogged : accept (logged serve q (s, log)).1 = .ok b := haccept
      have hstate : (logged serve q (s, log)).2 = ((serve q s).2, log ++ [(q, (serve q s).1)]) := rfl
      rw [play_ask_ok haccept, play_ask_ok hlogged, heard, haccept, Act.bind_run, Act.bind_run, hstate,
        play_logged rest, List.append_assoc]
      rcases play serve rest (serve q s).2 with ⟨e | more, t⟩
      · rfl
      · rfl

/-- **Nothing is heard where nothing is asked.** -/
theorem heard_nil_iff : ∀ (turns : List (Turn Q A ε β)) (s : σ),
    heard serve turns s = [] ↔ asks turns = false
  | [], _ => iff_of_true rfl rfl
  | .give _ :: rest, s => heard_nil_iff rest s
  | .stop _ :: _, _ => iff_of_true rfl rfl
  | .ask _ _ :: _, _ => iff_of_false (by simp [heard]) (by simp [asks])

/-! ### The end of a script -/

/-- **The client returns exactly when it reaches the end of its script.** -/
theorem play_ok_iff : ∀ {turns : List (Turn Q A ε β)} {s : σ} {found : List β},
    (play serve turns s).1 = .ok found ↔ Agreed serve turns s found
  | [], s, found => by
    constructor
    · intro h
      rw [← Except.ok.inj h]
      exact .nil s
    · rintro ⟨⟩
      rfl
  | .give found :: rest, s, all => by
    have ih := @play_ok_iff rest s
    rw [play_give, Act.bind_run]
    rcases hrest : play serve rest s with ⟨e | more, t⟩
    · refine iff_of_false (by simp) ?_
      rintro ⟨⟩
      next h =>
      have := ih.mpr h
      rw [hrest] at this
      exact absurd this (by simp)
    · constructor
      · intro h
        rw [← Except.ok.inj h]
        exact .give (ih.mp (by rw [hrest]))
      · rintro ⟨⟩
        next h =>
        have := ih.mpr h
        rw [hrest] at this
        rw [Except.ok.inj this]
        rfl
  | .stop e :: rest, s, found => by
    refine iff_of_false (by simp [play]) ?_
    rintro ⟨⟩
  | .ask q accept :: rest, s, found => by
    have ih := @play_ok_iff rest (serve q s).2
    rcases haccept : accept (serve q s).1 with e | b
    · rw [play_ask_error haccept]
      refine iff_of_false (by simp) ?_
      rintro ⟨⟩
      next hb _ =>
      rw [haccept] at hb
      exact absurd hb (by simp)
    · rw [play_ask_ok haccept, Act.bind_run]
      rcases hrest : play serve rest (serve q s).2 with ⟨e | more, t⟩
      · refine iff_of_false (by simp) ?_
        rintro ⟨⟩
        next h =>
        have := ih.mpr h
        rw [hrest] at this
        exact absurd this (by simp)
      · constructor
        · intro h
          rw [← Except.ok.inj h]
          exact .ask haccept (ih.mp (by rw [hrest]))
        · rintro ⟨⟩
          next hb h =>
          have := ih.mpr h
          rw [hrest] at this
          rw [haccept] at hb
          rw [Except.ok.inj this, Except.ok.inj hb]
          rfl

/-- **What is found at the end is there for every answer.** -/
theorem Agreed.accepted {turns : List (Turn Q A ε β)} {s : σ} {found : List β}
    (h : Agreed serve turns s found) : ∀ x ∈ heard serve turns s,
      ∃ accept b, Turn.ask x.1 accept ∈ turns ∧ accept x.2 = .ok b ∧ b ∈ found := by
  induction h with
  | nil s => exact fun x hx => absurd hx (by simp [heard])
  | @give found more rest s _ ih =>
    intro x hx
    obtain ⟨accept, b, hturn, hb, hmem⟩ := ih x hx
    exact ⟨accept, b, List.mem_cons_of_mem _ hturn, hb, List.mem_append_right _ hmem⟩
  | @ask q accept b more rest s hb _ ih =>
    intro x hx
    rw [heard, hb] at hx
    rcases List.mem_cons.mp hx with rfl | hx
    · exact ⟨accept, b, List.mem_cons_self, hb, List.mem_cons_self⟩
    · obtain ⟨accept', b', hturn, hb', hmem⟩ := ih x hx
      exact ⟨accept', b', List.mem_cons_of_mem _ hturn, hb', List.mem_cons_of_mem _ hmem⟩

/-- **What is found at the end** was at hand or is taken from an answer. -/
theorem Agreed.found {turns : List (Turn Q A ε β)} {s : σ} {found : List β}
    (h : Agreed serve turns s found) : ∀ b ∈ found, (∃ given, Turn.give given ∈ turns ∧ b ∈ given) ∨
      ∃ q accept a, Turn.ask q accept ∈ turns ∧ accept a = .ok b := by
  induction h with
  | nil s => exact fun b hb => absurd hb (by simp)
  | @give given more rest s _ ih =>
    intro b hb
    rcases List.mem_append.mp hb with hb | hb
    · exact .inl ⟨given, List.mem_cons_self, hb⟩
    · rcases ih b hb with ⟨other, hturn, hmem⟩ | ⟨q, accept, a, hturn, ha⟩
      · exact .inl ⟨other, List.mem_cons_of_mem _ hturn, hmem⟩
      · exact .inr ⟨q, accept, a, List.mem_cons_of_mem _ hturn, ha⟩
  | @ask q accept c more rest s hc _ ih =>
    intro b hb
    rcases List.mem_cons.mp hb with rfl | hb
    · exact .inr ⟨q, accept, _, List.mem_cons_self, hc⟩
    · rcases ih b hb with ⟨other, hturn, hmem⟩ | ⟨q', accept', a, hturn, ha⟩
      · exact .inl ⟨other, List.mem_cons_of_mem _ hturn, hmem⟩
      · exact .inr ⟨q', accept', a, List.mem_cons_of_mem _ hturn, ha⟩

/-! ### Scripts one after the other -/

/-- **A script in two parts.** -/
theorem play_append : ∀ (xs ys : List (Turn Q A ε β)), play serve (xs ++ ys) = (do
    let first ← play serve xs
    let second ← play serve ys
    return first ++ second)
  | [], ys => by
    funext s
    rw [List.nil_append, Act.bind_run]
    show play serve ys s = (do
      let second ← play serve ys
      return [] ++ second : Act σ ε (List β)) s
    rw [Act.bind_run]
    rcases play serve ys s with ⟨e | second, t⟩
    · rfl
    · rfl
  | .give found :: xs, ys => by
    funext s
    rw [List.cons_append, play_give, play_give, play_append xs ys]
    simp only [Act.bind_run]
    rcases play serve xs s with ⟨e | first, t⟩
    · rfl
    · simp only [Act.pure_run]
      rcases play serve ys t with ⟨e | second, u⟩
      · rfl
      · simp only [List.append_assoc]
  | .stop e :: xs, ys => rfl
  | .ask q accept :: xs, ys => by
    funext s
    rw [List.cons_append, Act.bind_run]
    rcases haccept : accept (serve q s).1 with e | b
    · rw [play_ask_error haccept, play_ask_error haccept]
    · rw [play_ask_ok haccept, play_ask_ok haccept, play_append xs ys]
      simp only [Act.bind_run]
      rcases play serve xs (serve q s).2 with ⟨e | first, t⟩
      · rfl
      · simp only [Act.pure_run]
        rcases play serve ys t with ⟨e | second, u⟩
        · rfl
        · simp only [List.cons_append]

end Cloudx.Lib.Script
