import Cloudx.Local.BrokerClient

/-! # What a shell does with its leases

Whatever happens in between, a shell follows `SessionRule`: it asks for a lease only while a command of its
own runs; it releases only the lease that the command started with or was granted; and it evaluates a text
with a new lease only when the old one was released or given up, and the new one was granted. -/

namespace Cloudx.Local.LeaseRules

open Cloudx.Lib.Fault Cloudx.Lib.Threads Cloudx.Lib.Threads.Thread Cloudx.Lib.Reports Cloudx.Lib.Shell
open Cloudx.Python.Text Cloudx.Python.Value
open Cloudx.Local.Broker Cloudx.Local.ShellModes Cloudx.Local.BrokerClient

variable {ids : Identifiers} {py : Py} {host : Host} {past : List Event} {shell : ℕ} {lease : Str}

/-! ### The rule -/

/-- A command starts or ends. -/
def Brackets : Event → Bool
  | .began _ _ | .evaluated _ _ | .failed _ => true
  | _ => false

/-- A command of the shell runs that started with this lease. -/
def Current (past : List Event) (shell : ℕ) (lease : Str) : Prop :=
  ∃ before middle, past = before ++ .began shell lease :: middle ∧ ∀ e ∈ middle, Brackets e = false

/-- A release of the lease was answered, or given up. -/
def Dropped (past : List Event) (lease : Str) : Prop := .released lease ∈ past ∨ .gaveUp lease ∈ past

/-- The port of an answer is one. -/
def PortIs (host : Host) (d : Dict) (port : ℤ) : Prop :=
  portOf host d = .ok port ∧ 1 ≤ port ∧ port ≤ 65535

variable (ids py host) in
/-- What has come of a call for a lease when its command has ended. -/
def Settled (past : List Event) (shell call : ℕ) : Prop :=
  .refused call ∈ past ∨ .gaveUp (ids.uuid4 call) ∈ past ∨
    ∃ d, .granted call d ∈ past ∧ ((∀ port, ¬ PortIs host d port) ∨ leaseText py d = [] ∨
      Dropped past (leaseText py d) ∨ .evaluated shell (strip (leaseText py d)) ∈ past)

/-- The machine after a call. -/
def called (s : Machine) (document : Dict) : Machine :=
  { s with calls := s.calls ++ [⟨document, .waiting⟩] }

/-- The machine after a change of the variables of a shell. -/
def changed (s : Machine) (shell : ℕ) (f : Variables → Variables) : Machine :=
  { s with shells := s.shells.modify shell (Shell.change f) }

variable (py host) in
/-- A change puts this lease into the variables, and with it the port that it was granted with. -/
def Puts (past : List Event) (lease : Str) (f : Variables → Variables) : Prop :=
  (∀ env, leaseOf (f env) = lease) ∧ (lease = [] ∨ ∃ call d port, .granted call d ∈ past ∧
    lease = strip (leaseText py d) ∧ PortIs host d port ∧
      ∀ env, f env (lit "CLOUDX_MODE_BROKER_PORT") = some (decimal port.toNat))

variable (ids py host) in
/-- What a shell and its commands may do. -/
def SessionRule : Rule Machine Event := fun past s s' event => match event with
  | none => s' = s ∨ s' = called s pingDocument
  | some (.opened n) => (∀ m, .opened m ∉ past) ∧ n = s.shells.length ∧ ∃ env,
      s' = { s with shells := s.shells ++ [⟨env, true⟩] } ∧
      (leaseOf env = [] ∨ ∃ (m : ℕ) (x : Shell), s.shells[m]? = some x ∧ env = x.env)
  | some (.began n lease) => s' = s ∧ .opened n ∈ past ∧ lease = s.leaseAt n ∧
      ∀ call, .asked n call ∈ past → Settled ids py host past n call
  | some (.asked n call) => .opened n ∈ past ∧ (∃ lease, Current past n lease) ∧ call = s.calls.length ∧
      ∃ spec, s' = called s (acquireDocument (ids.uuid4 call) (ids.pid n) spec)
  | some (.granted call d) => s' = s ∧ answerOf s call = some d ∧ accepted d ∧ ∃ n, .asked n call ∈ past
  | some (.refused call) => s' = s ∧ ∃ d, answerOf s call = some d ∧ accepted d = false
  | some (.releasing lease call) => call = s.calls.length ∧ s' = called s (releaseDocument lease) ∧
      ((∃ n, .began n lease ∈ past) ∨ ∃ k d, .granted k d ∈ past ∧ lease = leaseText py d)
  | some (.released lease) => s' = s ∧ ∃ call d, .releasing lease call ∈ past ∧ answerOf s call = some d
  | some (.gaveUp _) => s' = s
  | some (.evaluated n lease) => .opened n ∈ past ∧
      (∃ old, Current past n old ∧ (old = [] ∨ Dropped past old)) ∧
      (∀ call, .asked n call ∈ past → Settled ids py host (past ++ [.evaluated n lease]) n call) ∧
      ∃ f, s' = changed s n f ∧ Puts py host past lease f
  | some (.failed n) => s' = s ∧ .opened n ∈ past ∧
      ∀ call, .asked n call ∈ past → Settled ids py host past n call
  | some (.closed n) => .opened n ∈ past ∧
      s' = { s with shells := s.shells.modify n Shell.close }
  | some (.served _ _) | some .ended => False

/-- A program that follows the rule. -/
abbrev Follows {α : Type} (ids : Identifiers) (py : Py) (host : Host)
    (P : List Event → Except Raised α → Prop) (past : List Event) (x : Program α) : Prop :=
  Adds (SessionRule ids py host) P past x

/-! ### Requests -/

/-- **A request**: it is sent or not, and then something comes back or not. -/
theorem follows_request {document : ℕ → Dict} {notes : Notes} {P : List Event → Except Raised Dict → Prop}
    (hunsent : ∀ s, SessionRule ids py host past s s notes.unsent ∧
      P notes.unsent.toList (.error .osError))
    (hsent : ∀ s : Machine, SessionRule ids py host past s (called s (document s.calls.length))
      (notes.sent s.calls.length))
    (hback : ∀ s call, SessionRule ids py host (past ++ (notes.sent call).toList) s s
        (notes.back call (answerOf s call)) ∧
      P ((notes.sent call).toList ++ (notes.back call (answerOf s call)).toList) (outcomeOf py s call)) :
    Follows ids py host P past (request py document notes) := by
  have hconnect : Follows ids py host (fun events r => match r with
      | .ok call => events = (notes.sent call).toList
      | .error e => P events (.error e)) past (connect document notes) := by
    refine adds_atomically fun s => ?_
    by_cases hserver : s.server.isSome
    · simp only [if_pos hserver]
      exact ⟨hsent s, trivial⟩
    · simp only [if_neg hserver]
      exact hunsent s
  refine hconnect.bind (fun events call h => ?_) fun _ _ h => h
  obtain rfl : events = (notes.sent call).toList := h
  exact adds_atomically fun s => hback s call

/-- What came back, and what `request` makes of it. -/
theorem outcome_cases (py : Py) (s : Machine) (call : ℕ) :
    (∃ d, answerOf s call = some d ∧ accepted d = true ∧ outcomeOf py s call = .ok d) ∨
      (∃ d, answerOf s call = some d ∧ accepted d = false ∧ ∃ e, outcomeOf py s call = .error e) ∨
        answerOf s call = none ∧ ∃ e, outcomeOf py s call = .error e := by
  unfold answerOf outcomeOf
  rcases s.calls[call]?.map Call.reply with _ | _ | d | _
  · exact .inr (.inr ⟨rfl, _, rfl⟩)
  · exact .inr (.inr ⟨rfl, _, rfl⟩)
  · by_cases hd : accepted d = true
    · exact .inl ⟨d, rfl, hd, if_pos hd⟩
    · exact .inr (.inl ⟨d, rfl, Bool.eq_false_iff.mpr hd, _, if_neg hd⟩)
  · exact .inr (.inr ⟨rfl, _, rfl⟩)

/-- What may be reported of a ping. -/
def Giving (failing : Option Event) : Prop := failing = none ∨ ∃ lease, failing = some (.gaveUp lease)

theorem Giving.stays {failing : Option Event} (h : Giving failing) (past : List Event) (s : Machine) :
    SessionRule ids py host past s s failing := by
  rcases h with rfl | ⟨lease, rfl⟩
  · exact .inl rfl
  · exact rfl

/-- A handler that has an answer for the caught exceptions. -/
theorem follows_except {α : Type} {P : List Event → Except Raised α → Prop} {handler : Program α}
    {r : Except Raised α} (hok : ∀ a, r = .ok a → P [] (.ok a))
    (hcaught : ∀ e, r = .error e → Follows ids py host P past handler)
    (herror : ∀ e, r = .error e → P [] (.error e)) :
    Follows ids py host P past (except handler r) := by
  rcases r with e | a
  · unfold BrokerClient.except
    dsimp only
    split_ifs
    · exact hcaught e rfl
    · exact adds_raise (herror e rfl)
  · exact adds_pure (hok a rfl)

/-- **A ping** reports only that it fails. -/
theorem follows_ping {failing : Option Event} (hfailing : Giving failing) :
    Follows ids py host (fun events r => r = .ok true ∧ events = [] ∨
      r ≠ .ok true ∧ events = failing.toList) past (ping py failing) := by
  have hrequest : Follows ids py host (fun events r => (∃ d, r = .ok d) ∧ events = [] ∨
      (∃ e, r = .error e) ∧ events = failing.toList) past
      (request py (fun _ => pingDocument) (pingNotes failing)) := by
    refine follows_request (fun s => ⟨hfailing.stays past s, .inr ⟨⟨_, rfl⟩, rfl⟩⟩)
      (fun s => .inr rfl) fun s call => ?_
    rcases outcome_cases py s call with ⟨d, hd, hok, h⟩ | ⟨d, hd, hok, e, h⟩ | ⟨hnone, e, h⟩
    · rw [hd, h]
      have hback : (pingNotes failing).back call (some d) = none := if_pos hok
      rw [hback]
      exact ⟨.inl rfl, .inl ⟨⟨d, rfl⟩, rfl⟩⟩
    · rw [hd, h]
      have hback : (pingNotes failing).back call (some d) = failing :=
        if_neg (by rw [Option.any_some, hok]; simp)
      rw [hback]
      exact ⟨hfailing.stays _ s, .inr ⟨⟨e, rfl⟩, rfl⟩⟩
    · rw [hnone, h]
      exact ⟨hfailing.stays _ s, .inr ⟨⟨e, rfl⟩, rfl⟩⟩
  have hbody : Follows ids py host (fun events (r : Except Raised Bool) => r = .ok true ∧ events = [] ∨
      (∃ e, r = .error e) ∧ events = failing.toList) past (do
        let _ ← request py (fun _ => pingDocument) (pingNotes failing)
        return true) := by
    refine hrequest.bind (fun events d h => adds_pure ?_) fun events e h => ?_
    · rcases h with ⟨-, rfl⟩ | ⟨⟨e, he⟩, -⟩
      · exact .inl ⟨rfl, rfl⟩
      · cases he
    · rcases h with ⟨⟨d, hd⟩, -⟩ | ⟨-, rfl⟩
      · cases hd
      · exact .inr ⟨⟨e, rfl⟩, rfl⟩
  refine hbody.caught fun events r h => follows_except (fun b hb => ?_) (fun e he => ?_) fun e he => ?_
  · subst hb
    rcases h with ⟨h, rfl⟩ | ⟨⟨e, he⟩, -⟩
    · exact .inl ⟨h, rfl⟩
    · cases he
  · subst he
    rcases h with ⟨h, -⟩ | ⟨-, rfl⟩
    · cases h
    · exact adds_pure (.inr ⟨by simp, by simp⟩)
  · subst he
    rcases h with ⟨h, -⟩ | ⟨-, rfl⟩
    · cases h
    · exact .inr ⟨by simp, by simp⟩

/-! ### The client -/

/-- A ping of which nothing is reported. -/
theorem follows_silent (past : List Event) :
    Follows ids py host (fun events _ => events = []) past (ping py none) :=
  (follows_ping (.inl rfl)).mono fun events r h => by
    rcases h with ⟨-, h⟩ | ⟨-, h⟩
    · exact h
    · exact h

theorem follows_awaitBroker : ∀ (polls : List Bool) (past : List Event),
    Follows ids py host (fun events _ => events = []) past (awaitBroker py polls)
  | [], _ => adds_lift rfl
  | exited :: polls, past => by
    refine (follows_silent past).bind (fun events up h => ?_) fun _ _ h => h
    obtain rfl : events = [] := h
    rw [List.append_nil]
    split_ifs
    · exact adds_pure rfl
    · exact adds_lift rfl
    · exact follows_awaitBroker polls past

theorem follows_ensureStarted (start : Start) (past : List Event) :
    Follows ids py host (fun events _ => events = []) past (ensureStarted py start) := by
  refine (follows_silent past).bind (fun events up h => ?_) fun _ _ h => h
  obtain rfl : events = [] := h
  rw [List.append_nil]
  split_ifs
  · exact adds_pure rfl
  refine Adds.bind (P := fun events _ => events = []) (adds_lift rfl) (fun events _ h => ?_) fun _ _ h => h
  obtain rfl : events = [] := h
  rw [List.append_nil]
  refine (follows_silent past).bind (fun events up h => ?_) fun _ _ h => h
  obtain rfl : events = [] := h
  rw [List.append_nil]
  split_ifs
  · exact adds_pure rfl
  refine Adds.bind (P := fun events _ => events = []) (adds_lift rfl) (fun events _ h => ?_) fun _ _ h => h
  obtain rfl : events = [] := h
  rw [List.append_nil]
  exact follows_awaitBroker start.polls past

variable (ids py host) in
/-- What is reported of an `acquire`, and its result. -/
inductive Acquires (shell : ℕ) : List Event → Except Raised Dict → Prop where
  | unsent (e : Raised) : Acquires shell [] (.error e)
  | refused (call : ℕ) (e : Raised) : Acquires shell [.asked shell call, .refused call] (.error e)
  | unknown (call : ℕ) (e : Raised) :
    Acquires shell [.asked shell call, .gaveUp (ids.uuid4 call)] (.error e)
  | badPort (call : ℕ) (d : Dict) (e : Raised) (h : ∀ port, ¬ PortIs host d port) :
    Acquires shell [.asked shell call, .granted call d] (.error e)
  | granted (call : ℕ) (d : Dict) (port : ℤ) (h : PortIs host d port) :
    Acquires shell [.asked shell call, .granted call d] (.ok d)

/-- **Asking for a lease**, while a command of the shell runs. -/
theorem follows_acquireForOwner (hopened : .opened shell ∈ past) (hcurrent : Current past shell lease)
    (spec : TunnelSpec) (start : Start) : Follows ids py host (Acquires ids host shell) past
      (acquireForOwner ids py host spec shell start) := by
  have hrequest : Follows ids py host (fun events r =>
      events = [] ∧ (∃ e, r = .error e) ∨
        ∃ call, (∃ d, events = [.asked shell call, .granted call d] ∧ r = .ok d) ∨
          events = [.asked shell call, .refused call] ∧ (∃ e, r = .error e) ∨
            events = [.asked shell call, .gaveUp (ids.uuid4 call)] ∧ ∃ e, r = .error e) past
      (request py (fun call => acquireDocument (ids.uuid4 call) (ids.pid shell) spec)
        (acquireNotes ids shell)) := by
    refine follows_request (fun s => ⟨.inl rfl, .inl ⟨rfl, _, rfl⟩⟩)
      (fun s => ⟨hopened, ⟨lease, hcurrent⟩, rfl, spec, rfl⟩) fun s call => ?_
    have hasked : ∃ n, Event.asked n call ∈ past ++ ((acquireNotes ids shell).sent call).toList :=
      ⟨shell, List.mem_append_right _ List.mem_cons_self⟩
    rcases outcome_cases py s call with ⟨d, hd, hok, h⟩ | ⟨d, hd, hok, e, h⟩ | ⟨hnone, e, h⟩
    · have hback : (acquireNotes ids shell).back call (some d) = some (.granted call d) :=
        congrArg some (if_pos hok)
      rw [hd, h, hback]
      exact ⟨⟨rfl, hd, hok, hasked⟩, .inr ⟨call, .inl ⟨d, rfl, rfl⟩⟩⟩
    · have hback : (acquireNotes ids shell).back call (some d) = some (.refused call) :=
        congrArg some (if_neg (Bool.eq_false_iff.mp hok))
      rw [hd, h, hback]
      exact ⟨⟨rfl, d, hd, hok⟩, .inr ⟨call, .inr (.inl ⟨rfl, e, rfl⟩)⟩⟩
    · rw [hnone, h]
      exact ⟨rfl, .inr ⟨call, .inr (.inr ⟨rfl, e, rfl⟩)⟩⟩
  refine (follows_ensureStarted start past).bind (fun events _ h => ?_) fun events e h => ?_
  · obtain rfl : events = [] := h
    rw [List.append_nil]
    refine hrequest.bind (fun events d h => ?_) fun events e h => ?_
    · obtain ⟨call, hgranted⟩ : ∃ call, events = [.asked shell call, .granted call d] := by
        rcases h with ⟨-, e, he⟩ | ⟨call, ⟨d', rfl, hd⟩ | ⟨-, e, he⟩ | ⟨-, e, he⟩⟩
        · cases he
        · obtain rfl := Except.ok.inj hd
          exact ⟨call, rfl⟩
        · cases he
        · cases he
      subst hgranted
      refine Adds.bind (P := fun events r => events = [] ∧ r = portOf host d) (adds_lift ⟨rfl, rfl⟩)
        (fun events port h => ?_) fun events e h => ?_
      · obtain ⟨rfl, hport⟩ := h
        by_cases hrange : 1 ≤ port ∧ port ≤ 65535
        · rw [if_pos hrange]
          exact adds_pure (.granted call d port ⟨hport.symm, hrange⟩)
        · rw [if_neg hrange]
          refine adds_lift (.badPort call d _ fun port' h => hrange ?_)
          obtain rfl := Except.ok.inj (hport.trans h.1)
          exact h.2
      · obtain ⟨rfl, herr⟩ := h
        refine .badPort call d e fun port' h => ?_
        cases herr.trans h.1
    · rcases h with ⟨rfl, -⟩ | ⟨call, ⟨d, -, hd⟩ | ⟨rfl, -⟩ | ⟨rfl, -⟩⟩
      · exact .unsent e
      · cases hd
      · exact .refused call e
      · exact .unknown call e
  · obtain rfl : events = [] := h
    exact .unsent e

/-- What is reported of a `release`. -/
def Releases (lease : Str) (events : List Event) : Prop :=
  (∀ e ∈ events, (∃ call, e = .releasing lease call) ∨ e = .released lease ∨ e = .gaveUp lease) ∧
    (lease = [] ∨ Dropped events lease)

theorem Releases.quiet {events : List Event} (h : Releases lease events) :
    ∀ e ∈ events, Brackets e = false := by
  intro e he
  rcases h.1 e he with ⟨call, rfl⟩ | rfl | rfl <;> rfl

theorem Releases.not_asked {events : List Event} (h : Releases lease events) (n call : ℕ) :
    .asked n call ∉ events := by
  intro he
  rcases h.1 _ he with ⟨_, he⟩ | he | he <;> cases he

/-- The shell has, or was granted, the lease. -/
def Owned (py : Py) (past : List Event) (lease : Str) : Prop :=
  (∃ n, .began n lease ∈ past) ∨ ∃ k d, .granted k d ∈ past ∧ lease = leaseText py d

theorem releases_gaveUp (lease : Str) : Releases lease [.gaveUp lease] :=
  ⟨fun _ he => .inr (.inr (List.mem_singleton.mp he)), .inr (.inr List.mem_cons_self)⟩

/-- **Releasing a lease** of one's own: it is released, or given up. -/
theorem follows_release (h : Owned py past lease) :
    Follows ids py host (fun events _ => Releases lease events) past (release py lease) := by
  have hrequest : Follows ids py host (fun events _ => Releases lease events) past
      (request py (fun _ => releaseDocument lease) (releaseNotes lease)) := by
    refine follows_request (fun s => ⟨rfl, releases_gaveUp lease⟩) (fun s => ⟨rfl, rfl, h⟩) fun s call => ?_
    have hsent : Event.releasing lease call ∈ past ++ ((releaseNotes lease).sent call).toList :=
      List.mem_append_right _ List.mem_cons_self
    have hlast : ∀ e : Event, e = .released lease ∨ e = .gaveUp lease →
        Releases lease ([.releasing lease call] ++ [e]) := by
      intro e he
      refine ⟨fun e' he' => ?_, .inr ?_⟩
      · rcases List.mem_cons.mp he' with rfl | he'
        · exact .inl ⟨call, rfl⟩
        · rw [List.mem_singleton.mp he']
          exact .inr he
      · rcases he with rfl | rfl
        · exact .inl (List.mem_cons_of_mem _ List.mem_cons_self)
        · exact .inr (List.mem_cons_of_mem _ List.mem_cons_self)
    rcases outcome_cases py s call with ⟨d, hd, hok, -⟩ | ⟨d, hd, hok, -⟩ | ⟨hnone, -⟩
    · have hback : (releaseNotes lease).back call (some d) = some (.released lease) :=
        congrArg some (if_pos hok)
      rw [hd, hback]
      exact ⟨⟨rfl, call, d, hsent, hd⟩, hlast _ (.inl rfl)⟩
    · have hback : (releaseNotes lease).back call (some d) = some (.gaveUp lease) :=
        congrArg some (if_neg (by rw [Option.any_some, hok]; simp))
      rw [hd, hback]
      exact ⟨rfl, hlast _ (.inr rfl)⟩
    · rw [hnone]
      exact ⟨rfl, hlast _ (.inr rfl)⟩
  unfold BrokerClient.release
  split_ifs with hnil
  · exact adds_pure ⟨nofun, .inl hnil⟩
  refine (follows_ping (.inr ⟨lease, rfl⟩)).bind (fun events up hup => ?_) fun events e hup => ?_
  · rcases hup with ⟨hup, rfl⟩ | ⟨hup, rfl⟩
    · obtain rfl := Except.ok.inj hup
      rw [if_pos rfl, List.append_nil]
      exact hrequest.bind (fun events _ hr => adds_pure (by rwa [List.nil_append, List.append_nil]))
        fun events e hr => hr
    · rw [if_neg fun htrue => hup (congrArg Except.ok htrue)]
      exact adds_pure (releases_gaveUp lease)
  · rcases hup with ⟨hup, -⟩ | ⟨-, rfl⟩
    · cases hup
    · exact releases_gaveUp lease

theorem follows_releaseCloudLease (h : Owned py past lease) :
    Follows ids py host (fun events _ => Releases lease events) past (releaseCloudLease py lease) := by
  unfold releaseCloudLease
  split_ifs with hnil
  · exact adds_pure ⟨nofun, .inl hnil⟩
  refine (follows_release h).caught fun events r hr => ?_
  have hend : Releases lease (events ++ []) := by rwa [List.append_nil]
  exact follows_except (fun _ _ => hend) (fun _ _ => adds_pure hend) fun _ _ => hend

/-! ### What the texts put into the variables -/

/-- Evaluating the text puts this lease into the variables. -/
def Sets (text lease : Str) : Prop :=
  ∀ env, ∃ env', evalScript text env = some env' ∧ leaseOf env' = lease

theorem Sets.leaseSet {text : Str} (h : Sets text lease) : leaseSet text = lease := by
  obtain ⟨env', henv, hlease⟩ := h fun _ => none
  rw [BrokerClient.leaseSet, henv]
  exact hlease

theorem Sets.leaseOf {text : Str} (h : Sets text lease) (env : Variables) :
    leaseOf ((evalScript text env).getD env) = lease := by
  obtain ⟨env', henv, hlease⟩ := h env
  rw [henv]
  exact hlease

/-- A text that unsets the lease. -/
theorem sets_none {text : Str} {settings : List Setting} (h : Evaluates text settings)
    (hmem : .unset (lit "CLOUDX_MODE_LEASE_ID") ∈ settings) : Sets text [] := by
  intro env
  obtain ⟨env', henv, hset, -⟩ := h env
  refine ⟨env', henv, ?_⟩
  rw [BrokerClient.leaseOf, show env' (lit "CLOUDX_MODE_LEASE_ID") = none from hset _ hmem]
  rfl

theorem sets_account (home codexHome name : Str) : Sets (selectAccountText home codexHome name) [] :=
  sets_none (evaluates_account home codexHome name)
    (List.mem_append_right _ List.mem_cons_self)

theorem sets_exit (home : Str) : Sets (exitModeText home) [] := by
  rw [exitModeText_eq]
  refine sets_none (evaluates_script (names_native home)) (List.mem_append_right _ ?_)
  exact List.mem_map_of_mem (List.mem_cons_of_mem _ List.mem_cons_self)

/-- `select_cloud` sets the lease and the port. -/
theorem cloud_sets (home codexHome leaseId : Str) (port : ℕ) (env : Variables) :
    ∃ env', evalScript (selectCloudText home codexHome leaseId port) env = some env' ∧
      leaseOf env' = strip leaseId ∧ env' (lit "CLOUDX_MODE_BROKER_PORT") = some (decimal port) := by
  obtain ⟨env', henv, hset, -⟩ := evaluates_script (names_cloud home codexHome leaseId port) env
  have hlease := hset (.set (lit "CLOUDX_MODE_LEASE_ID") leaseId) (by simp [cloudSettings])
  have hport := hset (.set (lit "CLOUDX_MODE_BROKER_PORT") (decimal port)) (by simp [cloudSettings])
  refine ⟨env', henv, ?_, hport⟩
  rw [BrokerClient.leaseOf, show env' (lit "CLOUDX_MODE_LEASE_ID") = some leaseId from hlease]
  rfl

/-! ### Commands -/

theorem Dropped.append_left {events : List Event} (h : Dropped events lease) (past : List Event) :
    Dropped (past ++ events) lease :=
  h.imp (List.mem_append_right past) (List.mem_append_right past)

theorem Settled.append_left {events : List Event} {call : ℕ} (h : Settled ids py host events shell call)
    (past : List Event) : Settled ids py host (past ++ events) shell call := by
  rcases h with h | h | ⟨d, hd, h⟩
  · exact .inl (List.mem_append_right past h)
  · exact .inr (.inl (List.mem_append_right past h))
  · refine .inr (.inr ⟨d, List.mem_append_right past hd, ?_⟩)
    exact h.imp_right (Or.imp_right (Or.imp (·.append_left past) (List.mem_append_right past)))

theorem Settled.append_right {events : List Event} {call : ℕ} (h : Settled ids py host events shell call)
    (more : List Event) : Settled ids py host (events ++ more) shell call := by
  rcases h with h | h | ⟨d, hd, h⟩
  · exact .inl (List.mem_append_left more h)
  · exact .inr (.inl (List.mem_append_left more h))
  · refine .inr (.inr ⟨d, List.mem_append_left more hd, ?_⟩)
    exact h.imp_right (Or.imp_right (Or.imp
      (Or.imp (List.mem_append_left more) (List.mem_append_left more)) (List.mem_append_left more)))

theorem Puts.append_left {events : List Event} {f : Variables → Variables}
    (h : Puts py host events lease f) (past : List Event) : Puts py host (past ++ events) lease f :=
  ⟨h.1, h.2.imp_right fun ⟨call, d, port, hd, hrest⟩ =>
    ⟨call, d, port, List.mem_append_right past hd, hrest⟩⟩

variable (ids py host) in
/-- What is reported of a command, and what it prints. -/
def Prints (shell : ℕ) (lease : Str) (events : List Event) (r : Except Raised Str) : Prop :=
  (∀ e ∈ events, Brackets e = false) ∧ match r with
  | .error _ => ∀ call, .asked shell call ∈ events → Settled ids py host events shell call
  | .ok text => (lease = [] ∨ Dropped events lease) ∧
      Puts py host events (leaseSet text) (fun env => (evalScript text env).getD env) ∧
      ∀ call, .asked shell call ∈ events →
        Settled ids py host (events ++ [.evaluated shell (leaseSet text)]) shell call

/-- A command that only releases its lease. -/
theorem Releases.prints {events : List Event} (h : Releases lease events) {text : Str}
    (hsets : Sets text []) : Prints ids py host shell lease events (.ok text) :=
  ⟨h.quiet, h.2, ⟨fun env => (hsets.leaseOf env).trans hsets.leaseSet.symm, .inl hsets.leaseSet⟩,
    fun call hasked => absurd hasked (h.not_asked shell call)⟩

theorem Releases.fails {events : List Event} (h : Releases lease events) (e : Raised) :
    Prints ids py host shell lease events (.error e) :=
  ⟨h.quiet, fun call hasked => absurd hasked (h.not_asked shell call)⟩

theorem follows_selectAccount (h : Owned py past lease) (home name : Str)
    (codexHome : Except Raised Str) :
    Follows ids py host (Prints ids py host shell lease) past
      (selectAccount py home lease name codexHome) := by
  refine (follows_releaseCloudLease h).bind (fun events _ hr => ?_) fun events e hr => hr.fails e
  refine Adds.bind (P := fun more _ => more = []) (adds_lift rfl) (fun more codexHome hm => ?_)
    fun more e hm => ?_
  · obtain rfl : more = [] := hm
    refine adds_pure ?_
    rw [List.append_nil, List.append_nil]
    exact hr.prints (sets_account home codexHome name)
  · obtain rfl : more = [] := hm
    rw [List.append_nil]
    exact hr.fails e

theorem follows_exitMode (h : Owned py past lease) (home : Str) :
    Follows ids py host (Prints ids py host shell lease) past (exitMode py home lease) := by
  refine (follows_releaseCloudLease h).bind (fun events _ hr => ?_) fun events e hr => hr.fails e
  refine adds_pure ?_
  rw [List.append_nil]
  exact hr.prints (sets_exit home)

theorem Acquires.quiet {events : List Event} {r : Except Raised Dict}
    (h : Acquires ids host shell events r) : ∀ e ∈ events, Brackets e = false := by
  cases h <;> simp [Brackets]

/-- An `acquire` that fails is settled. -/
theorem Acquires.settled {events : List Event} {e : Raised}
    (h : Acquires ids host shell events (.error e)) :
    ∀ call, .asked shell call ∈ events → Settled ids py host events shell call := by
  intro call hasked
  cases h with
  | unsent e => cases hasked
  | refused call' e =>
    obtain rfl : call = call' := by simpa using hasked
    exact .inl (by simp)
  | unknown call' e =>
    obtain rfl : call = call' := by simpa using hasked
    exact .inr (.inl (by simp))
  | badPort call' d e hport =>
    obtain rfl : call = call' := by simpa using hasked
    exact .inr (.inr ⟨d, by simp, .inl hport⟩)

/-- Only the call of an `acquire` is asked for. -/
theorem asked_eq {events more : List Event} {call call' : ℕ} {d : Dict} (hr : Releases lease events)
    (hm : ∀ n k, .asked n k ∉ more)
    (h : .asked shell call' ∈ events ++ ([.asked shell call, .granted call d] ++ more)) :
    call' = call := by
  rcases List.mem_append.mp h with h | h
  · exact absurd h (hr.not_asked shell call')
  · rcases List.mem_append.mp h with h | h
    · simpa using h
    · exact absurd h (hm shell call')

theorem follows_selectCloud (hopened : .opened shell ∈ past) (hcurrent : Current past shell lease)
    (h : Owned py past lease) (home : Str) (steps : CloudSteps) :
    Follows ids py host (Prints ids py host shell lease) past
      (selectCloud ids py host home shell lease steps) := by
  unfold selectCloud
  split_ifs with hpid
  · exact adds_lift ⟨nofun, nofun⟩
  refine (follows_releaseCloudLease h).bind (fun events _ hr => ?_) fun events e hr => hr.fails e
  refine Adds.bind (P := fun more _ => more = []) (adds_lift rfl) (fun more endpoint hm => ?_)
    fun more e hm => by
      obtain rfl : more = [] := hm
      rw [List.append_nil]
      exact hr.fails e
  obtain rfl : more = [] := hm
  rw [List.append_nil]
  simp only [List.nil_append]
  have hcurrent' : Current (past ++ events) shell lease := by
    obtain ⟨before, middle, rfl, hmiddle⟩ := hcurrent
    refine ⟨before, middle ++ events, by simp, fun e he => ?_⟩
    exact (List.mem_append.mp he).elim (hmiddle e) (hr.quiet e)
  refine (follows_acquireForOwner (List.mem_append_left _ hopened) hcurrent' endpoint steps.start).bind
    (fun acquired d ha => ?_) fun acquired e ha => ?_
  · obtain ⟨call, port, rfl, hport⟩ : ∃ call port,
        acquired = [.asked shell call, .granted call d] ∧ PortIs host d port := by
      cases ha with
      | granted call d port hport => exact ⟨call, port, rfl, hport⟩
    have hgranted : Event.granted call d ∈ [.asked shell call, .granted call d] := by simp
    rw [hport.1]
    refine Adds.bind (P := fun more r => more = [] ∧ r = .ok port) (adds_lift ⟨rfl, rfl⟩)
      (fun more port' hm => ?_) fun more e hm => by cases hm.2
    obtain ⟨rfl, hport'⟩ := hm
    obtain rfl := Except.ok.inj hport'
    rw [List.append_nil]
    simp only [List.nil_append]
    rcases steps.home port' with e | codexHome
    · -- the gateway check failed: the lease is released, and the command fails
      refine (follows_release (.inr ⟨call, d, List.mem_append_right _ hgranted, rfl⟩)).bind
        (fun more _ hm => ?_) fun more e hm => ?_
      all_goals
        have hfails : Prints ids py host shell lease
            (events ++ ([.asked shell call, .granted call d] ++ more)) (.error e) := by
          refine ⟨fun e' he => ?_, fun call' hasked => ?_⟩
          · rcases List.mem_append.mp he with he | he
            · exact hr.quiet e' he
            · exact (List.mem_append.mp he).elim (ha.quiet e') (hm.quiet e')
          · obtain rfl := asked_eq hr hm.not_asked hasked
            refine Settled.append_left (.inr (.inr ⟨d, List.mem_append_left _ hgranted, .inr ?_⟩)) _
            exact hm.2.imp_right fun hdrop => .inl (hdrop.append_left _)
      · refine adds_lift ?_
        rw [List.append_nil]
        exact hfails
      · exact hfails
    · refine adds_pure ?_
      rw [List.append_nil]
      have hsets : Sets (selectCloudText home codexHome (leaseText py d) port'.toNat)
          (strip (leaseText py d)) := fun env => by
        obtain ⟨env', henv, hlease, -⟩ := cloud_sets home codexHome (leaseText py d) port'.toNat env
        exact ⟨env', henv, hlease⟩
      refine ⟨fun e he => (List.mem_append.mp he).elim (hr.quiet e) (ha.quiet e),
        hr.2.imp_right (Or.imp (List.mem_append_left _) (List.mem_append_left _)), ⟨fun env =>
          (hsets.leaseOf env).trans hsets.leaseSet.symm, .inr ⟨call, d, port',
            List.mem_append_right _ hgranted, hsets.leaseSet, hport, fun env => ?_⟩⟩, fun call' hasked => ?_⟩
      · obtain ⟨env', henv, -, hset⟩ := cloud_sets home codexHome (leaseText py d) port'.toNat env
        dsimp only
        rw [henv]
        exact hset
      · have hnone : ∀ n k, Event.asked n k ∉ ([] : List Event) := nofun
        obtain rfl := asked_eq hr hnone (by rwa [List.append_nil])
        rw [hsets.leaseSet]
        exact .inr (.inr ⟨d, List.mem_append_left _ (List.mem_append_right _ hgranted),
          .inr (.inr (.inr (List.mem_append_right _ List.mem_cons_self)))⟩)
  · refine ⟨fun e' he => (List.mem_append.mp he).elim (hr.quiet e') (ha.quiet e'),
      fun call hasked => ?_⟩
    rcases List.mem_append.mp hasked with hasked | hasked
    · exact absurd hasked (hr.not_asked shell call)
    · exact (ha.settled call hasked).append_left events

theorem follows_printed (hopened : .opened shell ∈ past) (hcurrent : Current past shell lease)
    (h : Owned py past lease) (home : Str) (command : ModeCommand) :
    Follows ids py host (Prints ids py host shell lease) past
      (printed ids py host home shell lease command) := by
  cases command with
  | account name codexHome => exact follows_selectAccount h home name codexHome
  | cloud steps => exact follows_selectCloud hopened hcurrent h home steps
  | exit => exact follows_exitMode h home

/-! ### Shells -/

variable (ids py host) in
/-- The shell is there, and what it asked for is settled. -/
def Ready (past : List Event) (shell : ℕ) : Prop :=
  .opened shell ∈ past ∧ ∀ call, .asked shell call ∈ past → Settled ids py host past shell call

variable (ids py host) in
/-- What a command may end with. -/
def Concludes (past : List Event) (shell : ℕ) : Except Raised Str → Prop
  | .error _ => ∀ call, .asked shell call ∈ past → Settled ids py host past shell call
  | .ok text => (∃ old, Current past shell old ∧ (old = [] ∨ Dropped past old)) ∧
      (∀ call, .asked shell call ∈ past →
        Settled ids py host (past ++ [.evaluated shell (leaseSet text)]) shell call) ∧
      Puts py host past (leaseSet text) fun env => (evalScript text env).getD env

/-- The end of a command. -/
theorem meets_conclude {r : Except Raised Str} (hopened : .opened shell ∈ past)
    (h : Concludes ids py host past shell r) :
    Meets (SessionRule ids py host) (fun past' r => r = .ok () ∧ Ready ids py host past' shell) past
      (conclude shell r) := by
  rcases r with e | text
  · rw [conclude]
    refine meets_atomically fun s => ⟨⟨rfl, hopened, h⟩, rfl, List.mem_append_left _ hopened, ?_⟩
    intro call hcall
    rcases List.mem_append.mp hcall with hcall | hcall
    · exact (h call hcall).append_right _
    · cases List.mem_singleton.mp hcall
  · obtain ⟨hold, hsettled, hputs⟩ := h
    rw [conclude]
    refine meets_atomically fun s => ⟨⟨hopened, hold, hsettled, _, rfl, hputs⟩, rfl,
      List.mem_append_left _ hopened, ?_⟩
    intro call hcall
    rcases List.mem_append.mp hcall with hcall | hcall
    · exact hsettled call hcall
    · cases List.mem_singleton.mp hcall

/-- **A command**, from its start to its end. -/
theorem meets_applyMode (h : Ready ids py host past shell) (home : Str) (command : ModeCommand) :
    Meets (SessionRule ids py host) (fun past' r => r = .ok () ∧ Ready ids py host past' shell) past
      (applyMode ids py host home shell command) := by
  obtain ⟨hopened, hsettled⟩ := h
  refine Meets.bind (meets_atomically fun s => ⟨⟨rfl, hopened, rfl, hsettled⟩, ?_⟩)
  have hbegan : past ++ (some (Event.began shell (s.leaseAt shell))).toList =
      past ++ [.began shell (s.leaseAt shell)] := rfl
  rw [hbegan]
  have hprinted := @follows_printed ids py host _ shell (s.leaseAt shell)
    (List.mem_append_left _ hopened) ⟨past, [], rfl, nofun⟩
    (.inl ⟨shell, List.mem_append_right past List.mem_cons_self⟩) home command
  refine Meets.bind (Meets.mono (fun past' r hr => ?_) (meets_attempt hprinted))
  obtain ⟨r', rfl, events, rfl, hquiet, hr⟩ := hr
  refine meets_conclude (List.mem_append_left _ (List.mem_append_left _ hopened)) ?_
  -- what was asked for before is settled, and the rest is of this command
  have hasked : ∀ call, Event.asked shell call ∈ past ++ [.began shell (s.leaseAt shell)] ++ events →
      Settled ids py host past shell call ∨ .asked shell call ∈ events := by
    intro call hcall
    rcases List.mem_append.mp hcall with hcall | hcall
    · rcases List.mem_append.mp hcall with hcall | hcall
      · exact .inl (hsettled call hcall)
      · cases List.mem_singleton.mp hcall
    · exact .inr hcall
  rcases r' with e | text
  · intro call hcall
    rcases hasked call hcall with hold | hnew
    · rw [List.append_assoc]
      exact hold.append_right _
    · exact (hr call hnew).append_left _
  · obtain ⟨hdrop, hputs, hnew⟩ := hr
    refine ⟨⟨s.leaseAt shell, ⟨past, events, by simp, hquiet⟩,
      hdrop.imp_right (·.append_left _)⟩, fun call hcall => ?_, hputs.append_left _⟩
    rcases hasked call hcall with hold | hcall
    · rw [List.append_assoc, List.append_assoc]
      exact hold.append_right _
    · rw [List.append_assoc]
      exact (hnew call hcall).append_left _

/-- **A shell**, from its start to its end. -/
theorem meets_session (home : Str) (parent : Option ℕ) {env : Variables} (henv : leaseOf env = [])
    (commands : List ModeCommand) :
    Meets (SessionRule ids py host) (fun _ _ => True) []
      (session ids py host home parent env commands) := by
  refine Meets.bind (meets_atomically fun s => ⟨⟨nofun, rfl, _, rfl, ?_⟩, ?_⟩)
  · rcases hparent : parent.bind (s.shells[·]?) with _ | x
    · exact .inl henv
    · obtain ⟨m, -, hm⟩ := Option.bind_eq_some_iff.mp hparent
      exact .inr ⟨m, x, hm, rfl⟩
  have hready : Ready ids py host ([] ++ (some (Event.opened s.shells.length)).toList) s.shells.length :=
    ⟨List.mem_cons_self, fun call hcall => by cases List.mem_singleton.mp hcall⟩
  refine Meets.bind (Meets.mono (fun past r hr => ?_) (@meets_each _ _ _ _ _ _
    (fun past _ => Ready ids py host past s.shells.length) (fun _ _ => True) (fun _ _ => False) _
    (fun command past _ h => ?_) commands _ [] hready))
  · rcases r with e | more
    · exact hr.elim
    · exact meets_atomically fun t => ⟨⟨hr.1.1, rfl⟩, trivial⟩
  · refine Meets.mono (fun past' r hr => ?_) (meets_applyMode h home command)
    obtain ⟨rfl, hr⟩ := hr
    exact ⟨hr, trivial⟩

end Cloudx.Local.LeaseRules
