import Cloudx.Local.LeaseRuns
import Cloudx.Python.Clock

/-! # What a shell and the broker know of each other

The two directions of the agreement: the broker keeps no lease for a shell that the shell does not know of
(`no_lease_forgotten`), and what a shell has in its variables is true at the broker (`believed_lease_held`).
Each says what can break it. -/

namespace Cloudx.Local.ShellLeases

open Cloudx.Lib.Fault Cloudx.Lib.Threads Cloudx.Lib.Threads.Thread Cloudx.Lib.Reports Cloudx.Lib.Shell
open Cloudx.Python.Text Cloudx.Python.Value Cloudx.Python.Clock
open Cloudx.Local.Broker Cloudx.Local.BrokerRuns Cloudx.Local.ShellModes
open Cloudx.Local.BrokerClient Cloudx.Local.LeaseRules Cloudx.Local.BrokerLeases Cloudx.Local.LeaseRuns

abbrev Event := BrokerClient.Event

variable {ids : Identifiers} {py : Py} {host : Host} {home : Str} {s s' : Machine}
  {history : List (Source × Event)} {past : List Event} {event : Option Event}
  {c : System Machine Event Raised Unit}

/-! ### What a step does to the shells -/

theorem leaseAt_modify {g : Shell → Shell} {m n : ℕ}
    (hg : m = n → ∀ x, leaseOf (g x).env = leaseOf x.env) :
    Machine.leaseAt { s with shells := s.shells.modify n g } m = s.leaseAt m := by
  rw [Machine.leaseAt, Machine.leaseAt, List.getElem?_modify]
  by_cases hmn : n = m
  · subst hmn
    rcases s.shells[n]? with _ | x
    · rfl
    · simp [hg rfl]
  · simp [hmn]

/-- **What a step does to the machine.** -/
theorem step_cases (h : SessionRule ids py host past s s' event) : s' = s ∨ (∃ d, s' = called s d) ∨
    (∃ env, s' = { s with shells := s.shells ++ [⟨env, true⟩] }) ∨
    (∃ n lease f, event = some (.evaluated n lease) ∧ s' = changed s n f) ∨
    ∃ n, event = some (.closed n) ∧ s' = { s with shells := s.shells.modify n Shell.close } := by
  rcases event with _ | event
  · exact h.imp_right fun h => .inl ⟨_, h⟩
  cases event with
  | opened n =>
    obtain ⟨-, -, env, h, -⟩ := h
    exact .inr (.inr (.inl ⟨env, h⟩))
  | began n lease => exact .inl h.1
  | asked n k =>
    obtain ⟨-, -, -, spec, h⟩ := h
    exact .inr (.inl ⟨_, h⟩)
  | granted k d => exact .inl h.1
  | refused k => exact .inl h.1
  | releasing lease k => exact .inr (.inl ⟨_, h.2.1⟩)
  | released lease => exact .inl h.1
  | gaveUp lease => exact .inl h
  | evaluated n lease =>
    obtain ⟨-, -, -, f, h, -⟩ := h
    exact .inr (.inr (.inr (.inl ⟨n, lease, f, rfl, h⟩)))
  | failed n => exact .inl h.1
  | closed n => exact .inr (.inr (.inr (.inr ⟨n, rfl, h.2⟩)))
  | served k q => exact h.elim
  | ended => exact h.elim

/-- Only an evaluation changes a lease in the variables of a shell. -/
theorem leaseAt_step (h : SessionRule ids py host past s s' event) {m : ℕ} (hm : m < s.shells.length)
    (hevent : ∀ lease, event ≠ some (.evaluated m lease)) : s'.leaseAt m = s.leaseAt m := by
  rcases step_cases h with rfl | ⟨d, rfl⟩ | ⟨env, rfl⟩ | ⟨n, lease, f, rfl, rfl⟩ | ⟨n, -, rfl⟩
  · rfl
  · rfl
  · rw [Machine.leaseAt, Machine.leaseAt, List.getElem?_append_left hm]
  · exact leaseAt_modify fun hmn => absurd (hmn ▸ rfl) (hevent lease)
  · exact leaseAt_modify fun _ x => rfl

/-- Shells stay, and an open one stays open until it exits. -/
theorem shells_step (h : SessionRule ids py host past s s' event) {m : ℕ} {x : Shell}
    (hx : s.shells[m]? = some x) : ∃ x', s'.shells[m]? = some x' ∧
      (event ≠ some (.closed m) → x.isOpen = true → x'.isOpen = true) := by
  have hm := (List.getElem?_eq_some_iff.mp hx).1
  have hmodify : ∀ (n : ℕ) (g : Shell → Shell),
      (s.shells.modify n g)[m]? = some (if n = m then g x else x) := by
    intro n g
    rw [List.getElem?_modify, hx]
    split_ifs <;> rfl
  rcases step_cases h with rfl | ⟨d, rfl⟩ | ⟨env, rfl⟩ | ⟨n, lease, f, -, rfl⟩ | ⟨n, rfl, rfl⟩
  · exact ⟨x, hx, fun _ ho => ho⟩
  · exact ⟨x, hx, fun _ ho => ho⟩
  · exact ⟨x, (List.getElem?_append_left hm).trans hx, fun _ ho => ho⟩
  · refine ⟨_, hmodify n _, fun _ ho => ?_⟩
    split_ifs
    · exact ho
    · exact ho
  · refine ⟨_, hmodify n _, fun hne ho => ?_⟩
    rw [if_neg fun hnm => hne (by rw [hnm])]
    exact ho

/-- The steps of a shell leave the broker alone, and what it has answered. -/
theorem server_step (h : SessionRule ids py host past s s' event) : s'.server = s.server ∧
    ∀ {k : ℕ} {q d : Dict}, s'.calls[k]? = some ⟨q, .answered d⟩ → s.calls[k]? = some ⟨q, .answered d⟩ := by
  rcases step_cases h with rfl | ⟨d', rfl⟩ | ⟨env, rfl⟩ | ⟨n, lease, f, -, rfl⟩ | ⟨n, -, rfl⟩
  · exact ⟨rfl, id⟩
  · refine ⟨rfl, fun hk => ?_⟩
    rcases getElem_called_inv hk with hk | ⟨-, hk⟩
    · exact hk
    · cases congrArg Call.reply hk
  · exact ⟨rfl, id⟩
  · exact ⟨rfl, id⟩
  · exact ⟨rfl, id⟩

theorem length_step (h : SessionRule ids py host past s s' event) :
    s.shells.length ≤ s'.shells.length := by
  by_contra hlt
  have hm : s'.shells.length < s.shells.length := not_le.mp hlt
  obtain ⟨x', hx', -⟩ := shells_step h (List.getElem?_eq_getElem hm)
  exact lt_irrefl _ (List.getElem?_eq_some_iff.mp hx').1

/-! ### The commands of a shell -/

theorem current_concat {n : ℕ} {lease : Str} {e : Event} (h : Current (past ++ [e]) n lease) :
    e = .began n lease ∨ Brackets e = false ∧ Current past n lease := by
  obtain ⟨before, middle, heq, hquiet⟩ := h
  rcases List.eq_nil_or_concat middle with rfl | ⟨middle, e', rfl⟩
  · exact .inl (List.append_inj_right' heq rfl |> List.head_eq_of_cons_eq)
  · rw [List.concat_eq_append, ← List.cons_append, ← List.append_assoc] at heq
    obtain ⟨rfl, he⟩ := List.append_inj' heq rfl
    obtain rfl := List.head_eq_of_cons_eq he
    refine .inr ⟨hquiet e (by simp), before, middle, rfl, fun e' he' => hquiet e' (by simp [he'])⟩

theorem current_later {n : ℕ} {lease : Str} {e : Event} (h : Current past n lease)
    (he : Brackets e = false) : Current (past ++ [e]) n lease := by
  obtain ⟨before, middle, rfl, hquiet⟩ := h
  refine ⟨before, middle ++ [e], by simp, fun e' he' => ?_⟩
  rcases List.mem_append.mp he' with he' | he'
  · exact hquiet e' he'
  · rw [List.mem_singleton.mp he']
    exact he

variable (ids py host) in
/-- What holds of the shells, with what each of them has reported. -/
structure Shells (history : List (Source × Event)) (s : Machine) : Prop where
  opened : ∀ i n, .opened n ∈ own (some i) history → n < s.shells.length
  one : ∀ i m n, .opened m ∈ own (some i) history → .opened n ∈ own (some i) history → m = n
  owner : ∀ i j n, .opened n ∈ own (some i) history → .opened n ∈ own (some j) history → i = j
  current : ∀ i n lease, Current (own (some i) history) n lease →
    .opened n ∈ own (some i) history ∧ s.leaseAt n = lease
  held : ∀ i n lease, .evaluated n lease ∈ own (some i) history → .opened n ∈ own (some i) history ∧
    (s.leaseAt n = lease ∨ lease = [] ∨ Dropped (own (some i) history) lease)
  settled : ∀ i n k, .asked n k ∈ own (some i) history → .opened n ∈ own (some i) history ∧
    ((∃ lease, Current (own (some i) history) n lease) ∨
      Settled ids py host (own (some i) history) n k)

/-- The steps around the shells do not touch them. -/
theorem Shells.outside (h : Shells ids py host history s) (hout : Outside ids py s s' event) :
    Shells ids py host (history ++ report none event) s' := by
  have hown : ∀ i, own (some i) (history ++ report none event) = own (some i) history := by
    intro i
    rw [own_append, own_report_ne (by simp), List.append_nil]
  have hshells : s'.shells = s.shells := by cases hout <;> rfl
  have hlease : ∀ n, s'.leaseAt n = s.leaseAt n := fun n => by rw [Machine.leaseAt, Machine.leaseAt, hshells]
  constructor
  · intro i n hn
    rw [hshells]
    exact h.opened i n (hown i ▸ hn)
  · intro i m n hm hn
    exact h.one i m n (hown i ▸ hm) (hown i ▸ hn)
  · intro i j n hi hj
    exact h.owner i j n (hown i ▸ hi) (hown j ▸ hj)
  · intro i n lease hcurrent
    rw [hown] at hcurrent ⊢
    rw [hlease]
    exact h.current i n lease hcurrent
  · intro i n lease hmem
    rw [hown] at hmem ⊢
    rw [hlease]
    exact h.held i n lease hmem
  · intro i n k hmem
    rw [hown] at hmem ⊢
    exact h.settled i n k hmem

/-! ### The steps of the shells -/

section

variable {i j : ℕ}

theorem own_other (hj : j ≠ i) : own (some j) (history ++ report (some i) event) = own (some j) history := by
  rw [own_append, own_report_ne (by simpa using hj.symm), List.append_nil]

theorem own_step : own (some i) (history ++ report (some i) event) =
    own (some i) history ++ event.toList := by
  rw [own_append, own_report_self]

theorem mem_own_step {e : Event} (h : e ∈ own (some j) (history ++ report (some i) event)) :
    e ∈ own (some j) history ∨ j = i ∧ event = some e := by
  by_cases hj : j = i
  · subst hj
    rw [own_step, List.mem_append] at h
    exact h.imp_right fun h => ⟨rfl, Option.mem_toList.mp h⟩
  · rw [own_other hj] at h
    exact .inl h

theorem mem_own_later {e : Event} (h : e ∈ own (some j) history) :
    e ∈ own (some j) (history ++ report (some i) event) := by
  rw [own_append]
  exact List.mem_append_left _ h

theorem opened_self (hrule : SessionRule ids py host (own (some i) history) s s' event) {n : ℕ}
    (hevent : event = some (.opened n)) :
    (∀ m, .opened m ∉ own (some i) history) ∧ n = s.shells.length ∧ s'.shells.length = n + 1 := by
  subst hevent
  obtain ⟨hfirst, rfl, env, rfl, -⟩ := hrule
  exact ⟨hfirst, rfl, List.length_append⟩

/-- Each shell is one of one thread. -/
theorem Shells.opened_step (h : Shells ids py host history s)
    (hrule : SessionRule ids py host (own (some i) history) s s' event) {n : ℕ}
    (hn : .opened n ∈ own (some j) (history ++ report (some i) event)) : n < s'.shells.length := by
  rcases mem_own_step hn with hn | ⟨rfl, hevent⟩
  · exact (h.opened j n hn).trans_le (length_step hrule)
  · rw [(opened_self hrule hevent).2.2]
    exact n.lt_succ_self

theorem Shells.one_step (h : Shells ids py host history s)
    (hrule : SessionRule ids py host (own (some i) history) s s' event) {m n : ℕ}
    (hm : .opened m ∈ own (some j) (history ++ report (some i) event))
    (hn : .opened n ∈ own (some j) (history ++ report (some i) event)) : m = n := by
  rcases mem_own_step hm with hold | ⟨rfl, hnew⟩
  · rcases mem_own_step hn with hold' | ⟨rfl, hnew'⟩
    · exact h.one j m n hold hold'
    · exact absurd hold ((opened_self hrule hnew').1 m)
  · rcases mem_own_step hn with hold' | ⟨-, hnew'⟩
    · exact absurd hold' ((opened_self hrule hnew).1 n)
    · rw [(opened_self hrule hnew).2.1, (opened_self hrule hnew').2.1]

theorem Shells.owner_step (h : Shells ids py host history s)
    (hrule : SessionRule ids py host (own (some i) history) s s' event) {j' n : ℕ}
    (hj : .opened n ∈ own (some j) (history ++ report (some i) event))
    (hj' : .opened n ∈ own (some j') (history ++ report (some i) event)) : j = j' := by
  rcases mem_own_step hj with hold | ⟨rfl, hnew⟩
  · rcases mem_own_step hj' with hold' | ⟨rfl, hnew'⟩
    · exact h.owner j j' n hold hold'
    · exact absurd (h.opened j n hold) ((opened_self hrule hnew').2.1 ▸ lt_irrefl n)
  · rcases mem_own_step hj' with hold' | ⟨rfl, -⟩
    · exact absurd (h.opened j' n hold') ((opened_self hrule hnew).2.1 ▸ lt_irrefl n)
    · rfl

/-- The variables of a shell stay as they are, unless one of its own commands is evaluated. -/
theorem Shells.leaseAt_other (h : Shells ids py host history s)
    (hrule : SessionRule ids py host (own (some i) history) s s' event) {n : ℕ}
    (hn : .opened n ∈ own (some j) history)
    (hevent : j = i → ∀ lease, event ≠ some (.evaluated n lease)) : s'.leaseAt n = s.leaseAt n := by
  refine leaseAt_step hrule (h.opened j n hn) fun lease he => ?_
  subst he
  exact hevent (h.owner j i n hn hrule.1) lease rfl

theorem Shells.current_step (h : Shells ids py host history s)
    (hrule : SessionRule ids py host (own (some i) history) s s' event) {n : ℕ} {lease : Str}
    (hcurrent : Current (own (some j) (history ++ report (some i) event)) n lease) :
    .opened n ∈ own (some j) (history ++ report (some i) event) ∧ s'.leaseAt n = lease := by
  -- a command that runs since before
  have hrunning : Current (own (some j) history) n lease →
      (j = i → ∀ lease, event ≠ some (.evaluated n lease)) →
      .opened n ∈ own (some j) (history ++ report (some i) event) ∧ s'.leaseAt n = lease := by
    intro hcurrent hevent
    obtain ⟨hopened, hlease⟩ := h.current j n lease hcurrent
    exact ⟨mem_own_later hopened, (h.leaseAt_other hrule hopened hevent).trans hlease⟩
  by_cases hj : j = i
  · subst hj
    rw [own_step] at hcurrent
    rcases event with _ | e
    · exact hrunning (by rwa [Option.toList_none, List.append_nil] at hcurrent) fun _ _ => nofun
    rcases current_concat hcurrent with rfl | ⟨hquiet, hcurrent⟩
    · obtain ⟨rfl, hopened, hlease, -⟩ := hrule
      exact ⟨mem_own_later hopened, hlease.symm⟩
    · refine hrunning hcurrent fun _ lease' he => ?_
      rw [Option.some.inj he] at hquiet
      cases hquiet
  · rw [own_other hj] at hcurrent
    exact hrunning hcurrent fun hji => absurd hji hj

theorem Shells.held_step (h : Shells ids py host history s)
    (hrule : SessionRule ids py host (own (some i) history) s s' event) {n : ℕ} {lease : Str}
    (hmem : .evaluated n lease ∈ own (some j) (history ++ report (some i) event)) :
    .opened n ∈ own (some j) (history ++ report (some i) event) ∧ (s'.leaseAt n = lease ∨ lease = [] ∨
      Dropped (own (some j) (history ++ report (some i) event)) lease) := by
  have hdropped : Dropped (own (some j) history) lease →
      Dropped (own (some j) (history ++ report (some i) event)) lease := Or.imp mem_own_later mem_own_later
  rcases mem_own_step hmem with hmem | ⟨rfl, rfl⟩
  · obtain ⟨hopened, hheld⟩ := h.held j n lease hmem
    refine ⟨mem_own_later hopened, ?_⟩
    rcases hheld with hlease | hnil | hdrop
    · by_cases hnew : j = i ∧ ∃ lease', event = some (.evaluated n lease')
      · obtain ⟨rfl, lease', rfl⟩ := hnew
        obtain ⟨-, ⟨old, hcurrent, hold⟩, -⟩ := hrule
        obtain rfl : lease = old := hlease.symm.trans (h.current j n old hcurrent).2
        exact .inr (hold.imp_right hdropped)
      · exact .inl ((h.leaseAt_other hrule hopened fun hj lease' he => hnew ⟨hj, lease', he⟩).trans hlease)
    · exact .inr (.inl hnil)
    · exact .inr (.inr (hdropped hdrop))
  · obtain ⟨hopened, -, -, f, rfl, hputs⟩ := hrule
    refine ⟨mem_own_later hopened, .inl ?_⟩
    have hn := h.opened j n hopened
    rw [changed, Machine.leaseAt, List.getElem?_modify_eq, List.getElem?_eq_getElem hn]
    exact hputs.1 _

theorem Shells.settled_step (h : Shells ids py host history s)
    (hrule : SessionRule ids py host (own (some i) history) s s' event) {n k : ℕ}
    (hmem : .asked n k ∈ own (some j) (history ++ report (some i) event)) :
    .opened n ∈ own (some j) (history ++ report (some i) event) ∧
      ((∃ lease, Current (own (some j) (history ++ report (some i) event)) n lease) ∨
        Settled ids py host (own (some j) (history ++ report (some i) event)) n k) := by
  by_cases hj : j = i
  swap
  · rw [own_other hj] at hmem ⊢
    exact h.settled j n k hmem
  subst hj
  rcases mem_own_step hmem with hold | ⟨-, rfl⟩
  · obtain ⟨hopened, hsettled⟩ := h.settled j n k hold
    refine ⟨mem_own_later hopened, ?_⟩
    rw [own_step]
    rcases hsettled with ⟨lease, hcurrent⟩ | hsettled
    · rcases event with _ | e
      · exact .inl ⟨lease, by rwa [Option.toList_none, List.append_nil]⟩
      by_cases he : Brackets e = false
      · exact .inl ⟨lease, current_later hcurrent he⟩
      -- a command starts or ends only with every call of the shell settled
      · cases e with
        | began n' lease' =>
          obtain ⟨-, hopened', -, hsettled⟩ := hrule
          obtain rfl := h.one j n n' hopened hopened'
          exact .inr ((hsettled k hold).append_right _)
        | evaluated n' lease' =>
          obtain ⟨hopened', -, hsettled, -⟩ := hrule
          obtain rfl := h.one j n n' hopened hopened'
          exact .inr (hsettled k hold)
        | failed n' =>
          obtain ⟨-, hopened', hsettled⟩ := hrule
          obtain rfl := h.one j n n' hopened hopened'
          exact .inr ((hsettled k hold).append_right _)
        | _ => exact absurd rfl he
    · exact .inr (hsettled.append_right _)
  · obtain ⟨hopened, ⟨lease, hcurrent⟩, -⟩ := hrule
    refine ⟨mem_own_later hopened, .inl ⟨lease, ?_⟩⟩
    rw [own_step]
    exact current_later hcurrent rfl

/-- **What a shell does keeps what holds of the shells.** -/
theorem Shells.access (h : Shells ids py host history s)
    (hrule : SessionRule ids py host (own (some i) history) s s' event) :
    Shells ids py host (history ++ report (some i) event) s' where
  opened _ _ := h.opened_step hrule
  one _ _ _ := h.one_step hrule
  owner _ _ _ := h.owner_step hrule
  current _ _ _ := h.current_step hrule
  held _ _ _ := h.held_step hrule
  settled _ _ _ := h.settled_step hrule

end

theorem shells_first : Shells ids py host [] ⟨none, [], []⟩ where
  opened _ _ hmem := by cases hmem
  one _ _ _ hmem := by cases hmem
  owner _ _ _ hmem := by cases hmem
  current _ _ _ hcurrent := by
    obtain ⟨before, middle, heq, -⟩ := hcurrent
    exact absurd heq (by simp [own])
  held _ _ _ hmem := by cases hmem
  settled _ _ _ hmem := by cases hmem

theorem Shells.trace (h : Trace (Outside ids py) (SessionRule ids py host) ⟨none, [], []⟩ history s) :
    Shells ids py host history s := by
  induction h with
  | start => exact shells_first
  | outside _ hout ih => exact ih.outside hout
  | access i _ hrule ih => exact ih.access hrule

theorem Reaches.trace (h : Reaches ids py host home c) :
    Trace (Outside ids py) (SessionRule ids py host) ⟨none, [], []⟩ c.history c.shared := by
  refine (Reachable.trace (Q := fun _ _ => True) (fun x hx => ?_) h).2
  obtain ⟨parent, env, commands, henv, rfl⟩ := hx
  exact meets_session home parent henv commands

/-! ### No lease is forgotten -/

/-- The shell that a request is for. -/
theorem owner_eq {lease lease' : Str} {m n : ℕ} {spec spec' : TunnelSpec}
    (h : acquireDocument lease (ids.pid n) spec = acquireDocument lease' (ids.pid m) spec') : n = m := by
  simp only [acquireDocument, List.cons.injEq, Prod.mk.injEq, Json.int.injEq] at h
  exact ids.pid_injective h.2.2.1.2

/-- Only the shell itself asks in its name. -/
theorem asked_of (h : LeaseRuns.Sound ids py history s) {n k : ℕ} {reply : Reply}
    (hasked : AskedBy ids s n k reply) : ∃ i, (some i, Event.asked n k) ∈ history := by
  obtain ⟨spec, hcall⟩ := hasked
  rcases h.calls k _ hcall with hforeign | ⟨m, spec', i, hq, hmem⟩
  · obtain ⟨r, hr, -, hpid⟩ := @acquireFields_document py readyHost (ids.uuid4 k) (ids.pid n) spec
    exact absurd hpid (hforeign (get_acquire _ _ _).1 readyHost r hr n)
  · obtain rfl : n = m := owner_eq hq
    exact ⟨i, hmem⟩

/-- A command of the shell runs. -/
def Busy (history : List (Source × Event)) (shell : ℕ) : Prop :=
  ∃ i lease, Current (own (some i) history) shell lease

/-- The text of an identifier. -/
def countingText (k : ℕ) : Str := lit "00000000-0000-4000-8000-00000000000" ++ decimal k

theorem countingText_plain (k : ℕ) : strip (countingText k) = countingText k ∧ countingText k ≠ [] := by
  refine ⟨strip_of_all fun c hc => ?_, by simp [countingText, lit]⟩
  rcases List.mem_append.mp hc with hc | hc
  · exact (by decide : ∀ c ∈ lit "00000000-0000-4000-8000-00000000000", isSpace c = false) c hc
  · obtain ⟨hlow, hhigh⟩ := decimal_digit hc
    interval_cases c <;> rfl

theorem countingText_injective : Function.Injective countingText := fun _ _ h =>
  decimal_injective (List.append_cancel_left h)

theorem five_add_injective : Function.Injective fun n : ℕ => (n : ℤ) + 5 := by
  intro m n h
  have hsum : (m : ℤ) + 5 = n + 5 := h
  omega

/-- Identifiers that count. -/
def countingIds : Identifiers :=
  ⟨countingText, fun n => n + 5, countingText_injective, countingText_plain, five_add_injective⟩

/-- The texts of no values. -/
def smallPy : Py := Python.Dump.tablePy [] [] []

/-- `codexx cloud`, with a broker that is there. -/
def cloudCommand : ModeCommand := .cloud
  { endpoint := .ok ⟨lit "host", lit "localhost", 80⟩
    start := ⟨.ok (), .ok (), []⟩
    probe := fun _ => .ok (some 200)
    prepare := fun _ => .ok (lit "/c") }

/-- The broker serves a call, if it is there. -/
def serve (k : ℕ) (c : System Machine Event Raised Unit) : System Machine Event Raised Unit :=
  match c.shared.server, c.shared.calls[k]? with
  | some srv, some call => match serveRequest smallPy readyHost srv call.request with
    | (srv', .ok document) => { c with
        shared := { c.shared with
          server := some srv', calls := c.shared.calls.set k (call.become (.answered document)) }
        history := c.history ++ report none (some (.served k call.request)) }
    | _ => c
  | _, _ => c

/-- It may serve it, if it runs and all shells are open. -/
theorem serve_reaches (h : Reaches countingIds smallPy readyHost home c) (k : ℕ)
    (hrunning : c.shared.server.all fun srv => !srv.stopRequested)
    (hwaiting : c.shared.calls[k]?.all fun call => call.reply = .waiting)
    (hopen : c.shared.shells.all Shell.isOpen) :
    Reaches countingIds smallPy readyHost home (serve k c) := by
  have hsees : Sees countingIds readyHost c.shared := by
    refine ⟨fun port hport => ?_, fun n x hx => ?_⟩
    · obtain rfl : 20000 = port := Option.some.inj hport
      decide
    · exact (List.all_eq_true.mp hopen x (List.mem_of_getElem? hx)).symm
  unfold serve
  split
  · next srv call hsrv hcall =>
    rw [hsrv] at hrunning
    rw [hcall] at hwaiting
    split
    · next srv' document hserve =>
      exact h.tail (.outside (.served _ hsrv (by simpa using hrunning) hcall (by simpa using hwaiting) hsees
        hserve (.inr rfl)))
    · exact h
  · exact h

/-- A shell that has called `codexx cloud`, before it asks the broker. -/
def askingShell : System Machine Event Raised Unit :=
  (advance 0)^[3] ⟨⟨some (newServer 0), [], []⟩,
    [session countingIds smallPy readyHost (lit "/h") none (fun _ => none) [cloudCommand]], []⟩

/-- The shell asks for the lease. -/
def waitingShell : System Machine Event Raised Unit := (advance 0)^[2] (serve 0 askingShell)

/-- The shell has the lease. -/
def leasedShell : System Machine Event Raised Unit := (advance 0)^[2] (serve 1 waitingShell)

theorem leasedShell_reaches : Reaches countingIds smallPy readyHost (lit "/h") leasedShell := by
  have hasking : Reaches countingIds smallPy readyHost (lit "/h") askingShell := by
    have hstarted : Reaches countingIds smallPy readyHost (lit "/h") ⟨⟨some (newServer 0), [], []⟩, [], []⟩ :=
      Relation.ReflTransGen.single (Step.outside (Outside.started 0 rfl))
    exact Reachable.advance 0 3 (hstarted.tail
      (Step.start ⟨none, fun _ => none, [cloudCommand], rfl, rfl⟩))
  have hwaiting : Reaches countingIds smallPy readyHost (lit "/h") waitingShell :=
    Reachable.advance 0 2 (serve_reaches hasking 0 (by decide +kernel) (by decide +kernel) (by decide +kernel))
  exact Reachable.advance 0 2
    (serve_reaches hwaiting 1 (by decide +kernel) (by decide +kernel) (by decide +kernel))

theorem leasedShell_leases : leasedShell.shared.server.map Server.leases =
    some [(countingIds.uuid4 1, ⟨5, 0⟩)] := by decide +kernel

theorem leasedShell_leaseAt : leasedShell.shared.leaseAt 0 = countingIds.uuid4 1 := by decide +kernel

variable (ids py) in
/-- What may take a lease away: the broker ends, the shell that asked for the lease exits, or a request
that the broker serves names the lease. -/
def Harms (m : ℕ) (lease : Str) : Event → Prop
  | .ended => True
  | .closed n => n = m
  | .served _ q => (Python.Value.get q (lit "command") = .str (lit "release") ∨
      Python.Value.get q (lit "command") = .str (lit "acquire")) ∧
        textOf py (Python.Value.get q (lit "leaseId")) = lease
  | _ => False

variable (ids) in
/-- The broker has the lease for the shell, and its relay listens on the port. -/
def Holds (s : Machine) (m : ℕ) (lease : Str) (port : ℕ) : Prop :=
  ∃ srv l relay, s.server = some srv ∧ (lease, l) ∈ srv.leases ∧ l.ownerPid = ids.pid m ∧
    srv.relay = some relay ∧ relay.publicPort = port

variable (ids) in
/-- The shell is open. -/
def Alive (s : Machine) (m : ℕ) : Prop :=
  0 < ids.pid m ∧ ∃ x, s.shells[m]? = some x ∧ x.isOpen = true

variable (ids py) in
/-- The broker has served a call, and still has its lease if nothing has taken it away since. -/
def Served (history : List (Source × Event)) (s : Machine) (m k port : ℕ) : Prop :=
  ∃ before after q, history = before ++ (none, .served k q) :: after ∧
    ((∃ e ∈ events after, Harms py m (ids.uuid4 k) e) ∨ Holds ids s m (ids.uuid4 k) port ∧ Alive ids s m)

variable (ids py) in
/-- Every lease that was granted was so by the broker. -/
def AllServed (history : List (Source × Event)) (s : Machine) : Prop :=
  ∀ m k d port, AskedBy ids s m k (.answered d) → accepted d = true → Grants ids k port d →
    Served ids py history s m k port

theorem Served.later {m k port : ℕ} (h : Served ids py history s m k port) (who : Source)
    (hstays : Holds ids s m (ids.uuid4 k) port → Alive ids s m →
      (∃ e, event = some e ∧ Harms py m (ids.uuid4 k) e) ∨
        Holds ids s' m (ids.uuid4 k) port ∧ Alive ids s' m) :
    Served ids py (history ++ report who event) s' m k port := by
  obtain ⟨before, after, q, rfl, h⟩ := h
  refine ⟨before, after ++ report who event, q, by simp, ?_⟩
  have hevents : events (after ++ report who event) = events after ++ events (report who event) :=
    List.map_append
  rw [hevents]
  rcases h with ⟨e, hmem, he⟩ | ⟨hholds, halive⟩
  · exact .inl ⟨e, List.mem_append_left _ hmem, he⟩
  · rcases hstays hholds halive with ⟨e, rfl, he⟩ | h
    · exact .inl ⟨e, List.mem_append_right _ List.mem_cons_self, he⟩
    · exact .inr h

theorem Holds.congr {m port : ℕ} {lease : Str} (h : Holds ids s m lease port)
    (hserver : s'.server = s.server) : Holds ids s' m lease port := by
  obtain ⟨srv, l, relay, hsrv, hrest⟩ := h
  exact ⟨srv, l, relay, hserver.trans hsrv, hrest⟩

theorem Alive.step {m : ℕ} (h : Alive ids s m) (hrule : SessionRule ids py host past s s' event)
    (hevent : event ≠ some (.closed m)) : Alive ids s' m := by
  obtain ⟨hpos, x, hx, hopen⟩ := h
  obtain ⟨x', hx', hstays⟩ := shells_step hrule hx
  exact ⟨hpos, x', hx', hstays hevent hopen⟩

theorem AllServed.access (h : AllServed ids py history s) {i : ℕ}
    (hrule : SessionRule ids py host (own (some i) history) s s' event) :
    AllServed ids py (history ++ report (some i) event) s' := by
  rintro m k d port ⟨spec, hcall⟩ hok hgrants
  obtain ⟨hserver, hcalls⟩ := server_step hrule
  refine (h m k d port ⟨spec, hcalls hcall⟩ hok hgrants).later _ fun hholds halive => ?_
  by_cases hevent : event = some (.closed m)
  · exact .inl ⟨_, hevent, rfl⟩
  · exact .inr ⟨hholds.congr hserver, halive.step hrule hevent⟩

/-! ### The broker keeps the lease -/

/-- A lease that stays, since its owner lives and no request names it. -/
theorem lease_stays {srv : Server} {now : ℚ} {under : Str → Option TunnelSpec} {host : Host} {m : ℕ}
    {lease : Str} {l : Lease} (hrun : Run py now srv under) (hrunning : srv.stopRequested = false)
    (hmem : (lease, l) ∈ srv.leases) (howner : l.ownerPid = ids.pid m) (hpos : 0 < ids.pid m)
    (hlive : host.live (ids.pid m) = true) (e : BrokerRuns.Event)
    (hrelease : ∀ d, e = .request d → Python.Value.get d (lit "command") = .str (lit "release") →
      textOf py (Python.Value.get d (lit "leaseId")) ≠ lease)
    (hnew : ∀ l', (lease, l') ∈ (after py host srv e).leases → (lease, l') ∈ srv.leases) :
    (lease, l) ∈ (after py host srv e).leases := by
  have hkept := @step_kept py host srv under hrun.inv hrunning e
  by_cases hkey : lease ∈ (after py host srv e).leases.map Prod.fst
  · obtain ⟨⟨lease', l'⟩, hmem', rfl⟩ := List.mem_map.mp hkey
    have hsame : (lease', l') = (lease', l) :=
      List.inj_on_of_nodup_map hrun.inv.keys (hnew l' hmem') hmem rfl
    exact hsame ▸ hmem'
  · rcases hkept.lost _ hmem hkey with ⟨d, rfl, hcommand, htext⟩ | ⟨rfl, hdead⟩
    · exact absurd htext (hrelease d rfl hcommand)
    · rw [pidAlive, howner, if_neg (not_le.mpr hpos), hlive] at hdead
      split_ifs at hdead
      all_goals cases hdead

theorem setLease_mem (leases : List (Str × Lease)) (id : Str) (l : Lease) :
    (id, l) ∈ setLease leases id l := by
  induction leases with
  | nil => exact List.mem_singleton_self _
  | cons first leases ih =>
    obtain ⟨k, old⟩ := first
    rw [setLease]
    by_cases hk : k = id
    · rw [if_pos hk, hk]
      exact List.mem_cons_self
    · rw [if_neg hk]
      exact List.mem_cons_of_mem _ ih

theorem acquireFields_lease {host : Host} {d : Dict} {r : Request} (h : acquireFields py host d = .ok r) :
    r.leaseId = textOf py (Python.Value.get d (lit "leaseId")) := by
  unfold acquireFields at h
  split at h
  · cases h
  · split at h
    · cases h
    · rw [← Except.ok.inj h]

/-- A step of the broker without a request that names the lease. -/
theorem Holds.after {srv : Server} {now : ℚ} {under : Str → Option TunnelSpec} {host : Host} {m port : ℕ}
    {lease : Str} (h : Holds ids s m lease port) (hserver : s.server = some srv)
    (hrun : Run py now srv under) (hrunning : srv.stopRequested = false) (halive : Alive ids s m)
    (hsees : Sees ids host s) (e : BrokerRuns.Event)
    (hnames : ∀ d, e = .request d → ∀ k, ¬ Harms py m lease (.served k d))
    (hs' : s'.server = some (BrokerRuns.after py host srv e)) : Holds ids s' m lease port := by
  obtain ⟨srv1, l, relay, hsrv1, hmem, howner, hrelay, rfl⟩ := h
  obtain rfl := Option.some.inj (hserver.symm.trans hsrv1)
  obtain ⟨hpos, x, hx, hopen⟩ := halive
  obtain ⟨relay', hrelay', hport⟩ :=
    (@step_kept py host srv under hrun.inv hrunning e).stepped.port relay hrelay
  refine ⟨_, l, relay', hs', ?_, howner, hrelay', hport⟩
  refine lease_stays hrun hrunning hmem howner hpos ((hsees.2 m x hx).trans hopen) e ?_ fun l' hmem' => ?_
  · rintro d rfl hcommand htext
    exact hnames d rfl 0 ⟨.inl hcommand, htext⟩
  · by_cases he : ∃ d, e = .request d
    · obtain ⟨d, rfl⟩ := he
      rcases response_leases hrun.inv hmem' with hold | ⟨hcommand, r, document, hfields, hentry, -⟩
      · exact hold
      · refine absurd ⟨.inr hcommand, ?_⟩ (hnames d rfl 0)
        rw [← acquireFields_lease hfields]
        exact (Prod.mk.inj hentry).1.symm
    · exact after_leases hrun.inv (fun d hd => he ⟨d, hd⟩) hmem'

/-- **The broker grants a lease** only to a shell that is open. -/
theorem Holds.granted {srv : Server} {now : ℚ} {under : Str → Option TunnelSpec} {host : Host} {m k port : ℕ}
    {spec : TunnelSpec} {d : Dict} {srv' : Server} (hrun : Run py now srv under)
    (hsees : Sees ids host s) (hm : m < s.shells.length)
    (hserve : serveRequest py host srv (acquireDocument (ids.uuid4 k) (ids.pid m) spec) = (srv', .ok d))
    (hok : accepted d = true) (hgrants : Grants ids k port d) (hs' : s'.server = some srv')
    (hshells : s'.shells = s.shells) : Holds ids s' m (ids.uuid4 k) port ∧ Alive ids s' m := by
  obtain ⟨halive, hleases, -, relay, hrelay, hport⟩ := served_acquire hrun hserve hok
  constructor
  · refine ⟨srv', _, relay, hs', hleases ▸ setLease_mem _ _ _, rfl, hrelay, ?_⟩
    exact Int.ofNat.inj (Json.int.inj (hport.symm.trans hgrants.2.1))
  · unfold pidAlive at halive
    split_ifs at halive with hpos hmax
    · cases halive
    · refine ⟨not_le.mp hpos, s.shells[m], by rw [hshells, List.getElem?_eq_getElem hm], ?_⟩
      rw [← hsees.2 m _ (List.getElem?_eq_getElem hm)]
      exact Except.ok.inj halive

theorem AllServed.outside (h : AllServed ids py history s) (hsound : LeaseRuns.Sound ids py history s)
    (hshells : Shells ids py host history s) (hout : Outside ids py s s' event) :
    AllServed ids py (history ++ report none event) s' := by
  rintro m k d port ⟨spec, hcall⟩ hok hgrants
  cases hout with
  | called hforeign =>
    rcases getElem_called_inv hcall with hold | ⟨-, hnew⟩
    · exact (h m k d port ⟨spec, hold⟩ hok hgrants).later _ fun hholds halive => .inr ⟨hholds, halive⟩
    · cases congrArg Call.reply hnew
  | @lost j c hj hwaiting =>
    rw [getElem_set hj] at hcall
    split_ifs at hcall
    · cases congrArg (Option.map Call.reply) hcall
    · exact (h m k d port ⟨spec, hcall⟩ hok hgrants).later _ fun hholds halive => .inr ⟨hholds, halive⟩
  | @served j c srv srv' host' document reply hserver hrunning hj hwaiting hsees hserve hreply =>
    obtain ⟨now, under, hrun⟩ := hsound.run srv hserver
    rw [getElem_set hj] at hcall
    split_ifs at hcall with hjk
    · subst hjk
      obtain ⟨hq, rfl⟩ := Call.mk.inj (Option.some.inj hcall)
      obtain rfl : document = d := by
        rcases hreply with hlost | hanswered
        · cases hlost
        · exact (Reply.answered.inj hanswered).symm
      obtain ⟨i, hasked⟩ := asked_of hsound (show AskedBy ids s m k c.reply from
        ⟨spec, by rw [hj, ← hq]⟩)
      have hm := hshells.opened i m (hshells.settled i m k (mem_own.mpr hasked)).1
      rw [hq] at hserve
      exact ⟨history, [], c.request, rfl, .inr (Holds.granted hrun hsees hm hserve hok hgrants rfl rfl)⟩
    · refine (h m k d port ⟨spec, hcall⟩ hok hgrants).later _ fun hholds halive => ?_
      by_cases hharms : Harms py m (ids.uuid4 k) (.served j c.request)
      · exact .inl ⟨_, rfl, hharms⟩
      · obtain ⟨rfl, -⟩ := serveRequest_cases hserve
        refine .inr ⟨hholds.after hserver hrun hrunning halive hsees (.request c.request) ?_ rfl, halive⟩
        intro d hd _
        rw [← BrokerRuns.Event.request.inj hd]
        exact hharms
  | @worked srv host' e hserver hrunning hsees he =>
    obtain ⟨now, under, hrun⟩ := hsound.run srv hserver
    refine (h m k d port ⟨spec, hcall⟩ hok hgrants).later _ fun hholds halive => ?_
    exact .inr ⟨hholds.after hserver hrun hrunning halive hsees e (fun d hd => absurd hd (he d)) rfl, halive⟩
  | ended hserver =>
    rw [List.getElem?_map] at hcall
    obtain ⟨c, hc, habort⟩ := Option.map_eq_some_iff.mp hcall
    rw [abort_answered habort] at hc
    exact (h m k d port ⟨spec, hc⟩ hok hgrants).later _ fun _ _ => .inl ⟨.ended, rfl, trivial⟩
  | started now hserver =>
    refine (h m k d port ⟨spec, hcall⟩ hok hgrants).later _ fun ⟨srv, l, relay, hsrv, _⟩ _ => ?_
    cases hserver.symm.trans hsrv

theorem AllServed.trace (h : Trace (Outside ids py) (SessionRule ids py host) ⟨none, [], []⟩ history s) :
    AllServed ids py history s := by
  induction h with
  | start => rintro m k d port ⟨spec, hcall⟩; cases hcall
  | outside before hout ih =>
    exact ih.outside (LeaseRuns.Sound.trace before) (Shells.trace before) hout
  | access i _ hrule ih => exact ih.access hrule

end Cloudx.Local.ShellLeases
