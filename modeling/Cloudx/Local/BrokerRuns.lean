import Cloudx.Local.Broker
import Cloudx.Python.Dump
import Mathlib.Logic.Relation

/-! # The leases of the tunnel broker over whole runs

A run interleaves control requests, the two maintenance functions, the idle test and exits of the ssh
child in any order, each with any answers of the system. What every step keeps is `Inv`: live leases
share one specification, the one under which each was acquired, and the relay leads only to the
current child. -/

namespace Cloudx.Local.BrokerRuns

open Cloudx.Python.Text Cloudx.Python.Value
open Cloudx.Local.Broker

variable {py : Py} {host : Host} {s : Server}

/-! ### The relay -/

/-- The relay leads to a port only while the current child is the one that opened it. -/
def BackendOwned (s : Server) : Prop :=
  ∀ relay port, s.relay = some relay → relay.backend = some port →
    ∃ child, s.ssh = some child ∧ child.port = port

/-- The public port stays. -/
def KeepsPort (s s' : Server) : Prop :=
  ∀ relay, s.relay = some relay →
    ∃ relay', s'.relay = some relay' ∧ relay'.publicPort = relay.publicPort

/-- No backend has become ready, and no other child is there: or one has, and it is the child. -/
def Readied (host : Host) (s s' : Server) : Prop :=
  (s'.generation = s.generation ∧ ∀ child, s'.ssh = some child →
      ∃ child', s.ssh = some child' ∧ child'.pid = child.pid ∧ child'.port = child.port) ∨
    s'.generation = s.generation + 1 ∧ ∃ pid port relay, host.outcome = .ready pid ∧
      host.backendPort = some port ∧ s'.ssh = some ⟨pid, port, false⟩ ∧
      s'.relay = some relay ∧ relay.backend = some port

/-- What the functions that start and stop the tunnel do to the server: they leave specification,
leases and stop flag alone. -/
structure Tunnel (host : Host) (s s' : Server) : Prop where
  spec : s'.spec = s.spec
  leases : s'.leases = s.leases
  stop : s'.stopRequested = s.stopRequested
  port : KeepsPort s s'
  readied : Readied host s s'

theorem KeepsPort.refl (s : Server) : KeepsPort s s := fun relay h => ⟨relay, h, rfl⟩

/-- A relay stays. -/
theorem KeepsPort.ne_none {s s' : Server} (h : KeepsPort s s') (hr : s.relay ≠ none) :
    s'.relay ≠ none := by
  obtain ⟨relay, hr⟩ := Option.ne_none_iff_exists'.mp hr
  obtain ⟨relay', hr', -⟩ := h relay hr
  simp [hr']

theorem KeepsPort.trans {s t u : Server} (h : KeepsPort s t) (h' : KeepsPort t u) :
    KeepsPort s u := by
  intro relay hr
  obtain ⟨relay', hr', hport⟩ := h relay hr
  obtain ⟨relay'', hr'', hport'⟩ := h' relay' hr'
  exact ⟨relay'', hr'', hport'.trans hport⟩

theorem keepsPort_setBackend (s : Server) (port : Option ℕ) : KeepsPort s (s.setBackend port) := by
  intro relay h
  exact ⟨{ relay with backend := port }, by rw [Server.setBackend, h]; rfl, rfl⟩

/-- A server without a backend. -/
theorem backendOwned_none (s : Server) : BackendOwned (s.setBackend none) := by
  intro relay port hr hb
  rw [Server.setBackend] at hr
  obtain ⟨old, -, rfl⟩ := Option.map_eq_some_iff.mp hr
  exact absurd hb (by simp)

theorem Tunnel.refl (host : Host) (s : Server) : Tunnel host s s :=
  ⟨rfl, rfl, rfl, .refl s, Or.inl ⟨rfl, fun child h => ⟨child, h, rfl, rfl⟩⟩⟩

/-- Dropping the child and the backend. -/
theorem tunnel_drop (host : Host) (s : Server) :
    Tunnel host s ({ s with ssh := none }.setBackend none) :=
  ⟨rfl, rfl, rfl, keepsPort_setBackend { s with ssh := none } none,
    Or.inl ⟨rfl, fun child h => absurd h (by simp [Server.setBackend])⟩⟩

/-- What becomes ready after nothing has. -/
theorem Readied.trans {s t u : Server} (h : Readied host s t) (ht : t.generation = s.generation)
    (h' : Readied host t u) : Readied host s u := by
  rcases h' with ⟨hgen, hchild⟩ | ⟨hgen, hready⟩
  · refine Or.inl ⟨hgen.trans ht, fun child hc => ?_⟩
    obtain ⟨child', hc', hpid, hport⟩ := hchild child hc
    rcases h with ⟨-, hold⟩ | ⟨hno, -⟩
    · obtain ⟨child'', hc'', hpid', hport'⟩ := hold child' hc'
      exact ⟨child'', hc'', hpid'.trans hpid, hport'.trans hport⟩
    · omega
  · exact Or.inr ⟨by omega, hready⟩

/-- Dropping first and then starting is one step of the tunnel. -/
theorem Tunnel.trans {s t u : Server} (h : Tunnel host s t) (ht : t.generation = s.generation)
    (h' : Tunnel host t u) : Tunnel host s u :=
  ⟨h'.spec.trans h.spec, h'.leases.trans h.leases, h'.stop.trans h.stop, h.port.trans h'.port,
    h.readied.trans ht h'.readied⟩

/-! ### Starting and stopping ssh -/

/-- The server once its backend is ready. -/
theorem ready_fields (s : Server) (host : Host) (pid port : ℕ) :
    (s.ready host pid port).spec = s.spec ∧ (s.ready host pid port).leases = s.leases ∧
      (s.ready host pid port).stopRequested = s.stopRequested ∧
      (s.ready host pid port).ssh = some ⟨pid, port, false⟩ ∧
      (s.ready host pid port).relay = s.relay.map (fun relay => { relay with backend := some port }) ∧
      (s.ready host pid port).generation = s.generation + 1 := by
  unfold Server.ready
  rcases s.backendUnavailableSince with _ | since <;> exact ⟨rfl, rfl, rfl, rfl, rfl, rfl⟩

/-- **What a start does**, from a server without a child. -/
theorem spawn_spec (host : Host) {s : Server} {relay : Relay} (hr : s.relay = some relay)
    (hssh : s.ssh = none) (hown : BackendOwned s) (spec : TunnelSpec) :
    Tunnel host s (spawn host s spec).1 ∧ BackendOwned (spawn host s spec).1 ∧
      ((spawn host s spec).2 = .ok () → spec.startable = true ∧ (spawn host s spec).1.ssh ≠ none) ∧
      ∀ e, (spawn host s spec).2 = .error e → (spawn host s spec).1.ssh = none := by
  have hwait : Tunnel host s (s.setBackend none) :=
    ⟨rfl, rfl, rfl, keepsPort_setBackend s none,
      Or.inl ⟨rfl, fun child h => absurd (hssh.symm.trans h) (by simp)⟩⟩
  unfold spawn
  split
  · exact ⟨.refl host s, hown, fun h => absurd h (by simp), fun _ _ => hssh⟩
  · next port hport =>
    by_cases hstart : spec.startable = true
    · simp only [hstart, Bool.not_true, Bool.false_eq_true, if_false]
      split
      · exact ⟨hwait, backendOwned_none s, fun h => absurd h (by simp), fun _ _ => hssh⟩
      · exact ⟨hwait, backendOwned_none s, fun h => absurd h (by simp), fun _ _ => hssh⟩
      · exact ⟨hwait, backendOwned_none s, fun h => absurd h (by simp), fun _ _ => hssh⟩
      · exact ⟨hwait, backendOwned_none s, fun h => absurd h (by simp), fun _ _ => hssh⟩
      · next pid hpid =>
        obtain ⟨hspec, hleases, hstop, hchild, hrelay, hgen⟩ :=
          ready_fields (s.setBackend none) host pid port
        have hrelay' : ((s.setBackend none).ready host pid port).relay =
            some { relay with backend := some port } := by
          rw [hrelay, Server.setBackend, hr]
          rfl
        refine ⟨⟨hspec, hleases, hstop, ?_, ?_⟩, ?_, fun _ => ⟨trivial, ?_⟩, fun e h => ?_⟩
        · intro old hold
          obtain rfl := Option.some.inj (hr.symm.trans hold)
          exact ⟨_, hrelay', rfl⟩
        · exact Or.inr ⟨hgen, pid, port, _, hpid, hport, hchild, hrelay', rfl⟩
        · intro new newPort hnew hback
          obtain rfl := Option.some.inj (hrelay'.symm.trans hnew)
          exact ⟨_, hchild, Option.some.inj hback⟩
        · rw [hchild]
          simp
        · exact absurd h (by simp)
    · simp only [hstart, Bool.not_false, if_true]
      exact ⟨hwait, backendOwned_none s, fun h => absurd h (by simp), fun _ _ => hssh⟩

/-- `_start_ssh`, from a server without a child. -/
theorem startSsh_spec (host : Host) {s : Server} (hssh : s.ssh = none) (hown : BackendOwned s) :
    Tunnel host s (startSsh host s).1 ∧ BackendOwned (startSsh host s).1 ∧
      ((startSsh host s).2 = .ok () → (startSsh host s).1.ssh ≠ none ∧
        (startSsh host s).1.relay ≠ none ∧ ∃ spec, s.spec = some spec ∧ spec.startable = true) ∧
      ∀ e, (startSsh host s).2 = .error e → (startSsh host s).1.ssh = none := by
  unfold startSsh
  split
  · exact ⟨.refl host s, hown, fun h => absurd h (by simp), fun _ _ => hssh⟩
  · next spec hspec =>
    split
    · next relay _ hr =>
      obtain ⟨htunnel, hown', hok, herr⟩ := spawn_spec host hr hssh hown spec
      exact ⟨htunnel, hown',
        fun h => ⟨(hok h).2, htunnel.port.ne_none (by simp [hr]), spec, hspec, (hok h).1⟩, herr⟩
    · exact ⟨.refl host s, hown, fun h => absurd h (by simp), fun _ _ => hssh⟩
    · next port hr _ =>
      -- a new relay leads nowhere yet
      have hnew : BackendOwned { s with relay := some ⟨port, none⟩ } := by
        intro relay back h hb
        obtain rfl := Option.some.inj h
        exact absurd hb (by simp)
      obtain ⟨htunnel, hown', hok, herr⟩ :=
        spawn_spec host (s := { s with relay := some ⟨port, none⟩ }) rfl hssh hnew spec
      refine ⟨⟨htunnel.spec, htunnel.leases, htunnel.stop, ?_, htunnel.readied⟩, hown',
        fun h => ⟨(hok h).2, htunnel.port.ne_none (by simp), spec, hspec, (hok h).1⟩, herr⟩
      intro old hold
      exact absurd (hr.symm.trans hold) (by simp)

/-- `_stop_ssh` -/
theorem stopSsh_spec (host : Host) (s : Server) :
    Tunnel host s (stopSsh host s).1 ∧ BackendOwned (stopSsh host s).1 ∧
      (stopSsh host s).1.ssh = none ∧ (stopSsh host s).1.generation = s.generation := by
  have hsame : (stopSsh host s).1 = { s with ssh := none }.setBackend none := by
    unfold stopSsh
    split
    · rfl
    · split_ifs <;> rfl
  rw [hsame]
  exact ⟨tunnel_drop host s, backendOwned_none _, rfl, rfl⟩

/-- `_ensure_ssh` -/
theorem ensureSsh_spec (host : Host) {s : Server} (hown : BackendOwned s) :
    Tunnel host s (ensureSsh host s).1 ∧ BackendOwned (ensureSsh host s).1 ∧
      ((ensureSsh host s).2 = .ok () → (ensureSsh host s).1.ssh ≠ none ∧
        (s.ssh ≠ none ∨ (ensureSsh host s).1.relay ≠ none ∧
          ∃ spec, s.spec = some spec ∧ spec.startable = true)) ∧
      ∀ e, (ensureSsh host s).2 = .error e → (ensureSsh host s).1.ssh = none := by
  have hrestart : ∀ t : Server, t.ssh = none → Tunnel host s (t.setBackend none) →
      t.generation = s.generation → t.spec = s.spec →
      Tunnel host s (startSsh host (t.setBackend none)).1 ∧
        BackendOwned (startSsh host (t.setBackend none)).1 ∧
        ((startSsh host (t.setBackend none)).2 = .ok () →
          (startSsh host (t.setBackend none)).1.ssh ≠ none ∧
          (s.ssh ≠ none ∨ (startSsh host (t.setBackend none)).1.relay ≠ none ∧
            ∃ spec, s.spec = some spec ∧ spec.startable = true)) ∧
        ∀ e, (startSsh host (t.setBackend none)).2 = .error e →
          (startSsh host (t.setBackend none)).1.ssh = none := by
    intro t hssh hdrop hgen hspec
    obtain ⟨htunnel, hown', hok, herr⟩ := startSsh_spec host (s := t.setBackend none) hssh
      (backendOwned_none t)
    refine ⟨hdrop.trans hgen htunnel, hown', fun h => ⟨(hok h).1, Or.inr ?_⟩, herr⟩
    rw [← hspec]
    exact (hok h).2
  unfold ensureSsh
  split
  · next child hssh =>
    by_cases hexited : child.exited = true
    · rw [if_pos hexited]
      exact hrestart { s with ssh := none } rfl (tunnel_drop host s) rfl rfl
    · rw [if_neg hexited]
      exact ⟨.refl host s, hown, fun _ => ⟨by simp [hssh], Or.inl (by simp [hssh])⟩,
        fun e h => absurd h (by simp)⟩
  · next hssh =>
    exact hrestart s hssh ⟨rfl, rfl, rfl, keepsPort_setBackend s none,
      Or.inl ⟨rfl, fun child h => absurd (hssh.symm.trans h) (by simp)⟩⟩ rfl rfl

/-! ### Leases -/

theorem mem_setLease {leases : List (Str × Lease)} {id : Str} {lease : Lease}
    {entry : Str × Lease} (h : entry ∈ setLease leases id lease) :
    entry = (id, lease) ∨ entry ∈ leases := by
  induction leases with
  | nil => exact Or.inl (List.mem_singleton.mp h)
  | cons first leases ih =>
    obtain ⟨k, old⟩ := first
    rw [setLease] at h
    by_cases hk : k = id
    · rw [if_pos hk, hk] at h
      rcases List.mem_cons.mp h with h | h
      · exact Or.inl h
      · exact Or.inr (List.mem_cons_of_mem _ h)
    · rw [if_neg hk] at h
      rcases List.mem_cons.mp h with h | h
      · exact Or.inr (h ▸ List.mem_cons_self)
      · rcases ih h with h | h
        · exact Or.inl h
        · exact Or.inr (List.mem_cons_of_mem _ h)

/-- The keys after a lease is set. -/
theorem keys_setLease (leases : List (Str × Lease)) (id : Str) (lease : Lease) :
    (setLease leases id lease).map Prod.fst =
      if id ∈ leases.map Prod.fst then leases.map Prod.fst else leases.map Prod.fst ++ [id] := by
  induction leases with
  | nil => rfl
  | cons entry leases ih =>
    obtain ⟨k, old⟩ := entry
    rw [setLease]
    by_cases hk : k = id
    · rw [if_pos hk]
      simp [hk]
    · rw [if_neg hk, List.map_cons, ih]
      have hne : id ≠ k := Ne.symm hk
      by_cases hmem : id ∈ leases.map Prod.fst
      · rw [if_pos hmem, List.map_cons, if_pos (List.mem_cons_of_mem _ hmem)]
      · rw [if_neg hmem, List.map_cons, if_neg (by simpa [hne] using hmem)]
        rfl

/-! ### One step -/

/-- A child was started behind a relay, under a specification that can be passed to a process. -/
def Started (s : Server) : Prop :=
  s.ssh ≠ none → s.relay ≠ none ∧ ∃ spec, s.spec = some spec ∧ spec.startable = true

/-- What holds in every state of a run, `under` being the specification under which each lease was
last acquired. -/
structure Inv (s : Server) (under : Str → Option TunnelSpec) : Prop where
  spec : s.leases ≠ [] → ∃ spec, s.spec = some spec ∧ spec.startable = true ∧
    ∀ entry ∈ s.leases, under entry.1 = some spec
  relay : s.leases ≠ [] → s.relay ≠ none
  started : Started s
  backend : BackendOwned s
  stop : s.stopRequested = true → s.leases = []
  keys : (s.leases.map Prod.fst).Nodup
  owners : ∀ entry ∈ s.leases, entry.2.ownerPid ≤ pidMax

/-- What one step may do, whatever the step is. -/
structure Stepped (host : Host) (s s' : Server) : Prop where
  port : KeepsPort s s'
  readied : Readied host s s'
  spec : s'.spec ≠ s.spec → s.leases = []

/-- **The tunnel of an `acquire` request.** -/
theorem acquireTunnel_spec (host : Host) {s : Server} (hown : BackendOwned s) (hstarted : Started s)
    (spec : TunnelSpec) {s' : Server} {result : Except Raised Unit}
    (h : acquireTunnel host s spec = (s', result)) :
    s'.leases = s.leases ∧ s'.stopRequested = s.stopRequested ∧ KeepsPort s s' ∧
      Readied host s s' ∧ BackendOwned s' ∧ Started s' ∧ (s'.spec = s.spec ∨ some spec ≠ s.spec) ∧
      (result = .ok () → s'.spec = some spec ∧ spec.startable = true ∧ s'.relay ≠ none) := by
  unfold acquireTunnel at h
  split at h
  · next hne =>
    obtain ⟨htunnel, hown', hnone, hgen⟩ := stopSsh_spec host s
    split at h
    · next stopped e hstop =>
      obtain ⟨rfl, rfl⟩ := Prod.mk.inj h
      rw [hstop] at htunnel hown' hnone
      exact ⟨htunnel.leases, htunnel.stop, htunnel.port, htunnel.readied, hown',
        fun hssh => absurd hnone hssh, Or.inr hne, fun hok => absurd hok (by simp)⟩
    · next stopped u hstop =>
      rw [hstop] at htunnel hown' hnone hgen
      obtain ⟨hensure, hown'', hok, herr⟩ :=
        ensureSsh_spec host (s := { stopped with spec := some spec }) hown'
      rw [h] at hensure hown'' hok herr
      have hstart : result = .ok () → s'.relay ≠ none ∧ spec.startable = true := by
        intro hresult
        rcases (hok hresult).2 with hssh | ⟨hrelay, new, hnew, hstart⟩
        · exact absurd hnone hssh
        · obtain rfl := Option.some.inj hnew
          exact ⟨hrelay, hstart⟩
      refine ⟨hensure.leases.trans htunnel.leases, hensure.stop.trans htunnel.stop,
        htunnel.port.trans hensure.port, htunnel.readied.trans hgen hensure.readied, hown'',
        fun hssh => ?_, Or.inr hne,
        fun hresult => ⟨hensure.spec, (hstart hresult).2, (hstart hresult).1⟩⟩
      rcases result with e | _
      · exact absurd (herr e rfl) hssh
      · exact ⟨(hstart rfl).1, spec, hensure.spec, (hstart rfl).2⟩
  · next heq =>
    have heq : some spec = s.spec := not_not.mp heq
    obtain ⟨hensure, hown', hok, herr⟩ := ensureSsh_spec host hown
    rw [h] at hensure hown' hok herr
    have hstart : result = .ok () → s'.relay ≠ none ∧ spec.startable = true := by
      intro hresult
      have hany : s'.relay ≠ none ∧ ∃ old, s.spec = some old ∧ old.startable = true := by
        rcases (hok hresult).2 with hssh | hany
        · exact ⟨hensure.port.ne_none (hstarted hssh).1, (hstarted hssh).2⟩
        · exact hany
      obtain ⟨hrelay, old, hold, hstart⟩ := hany
      obtain rfl := Option.some.inj (heq.trans hold)
      exact ⟨hrelay, hstart⟩
    refine ⟨hensure.leases, hensure.stop, hensure.port, hensure.readied, hown', fun hssh => ?_,
      Or.inl hensure.spec,
      fun hresult => ⟨hensure.spec.trans heq.symm, (hstart hresult).2, (hstart hresult).1⟩⟩
    rcases result with e | _
    · exact absurd (herr e rfl) hssh
    · exact ⟨(hstart rfl).1, spec, hensure.spec.trans heq.symm, (hstart rfl).2⟩

/-- What the checks of an `acquire` request let through. -/
theorem acquireChecks_ok {r : Request} (h : acquireChecks host s r = .ok ()) :
    r.ownerPid ≤ pidMax ∧ (s.leases ≠ [] → s.spec.isSome → some r.spec = s.spec) := by
  unfold acquireChecks at h
  split at h
  · exact absurd h (by simp)
  · split at h
    · exact absurd h (by simp)
    · exact absurd h (by simp)
    · next halive =>
      split at h
      · exact absurd h (by simp)
      · split at h
        · exact absurd h (by simp)
        · next hsame =>
          constructor
          · unfold pidAlive at halive
            split_ifs at halive with hpos hmax
            · exact absurd halive (by simp)
            · exact not_lt.mp hmax
          · intro hleases hspec
            by_contra hne
            exact hsame ⟨hspec, hne, hleases⟩

/-- The ids whose leases are reaped have a dead owner. -/
theorem mem_staleIds {leases : List (Str × Lease)} {stale : List Str}
    (h : staleIds host leases = .ok stale) {id : Str} (hid : id ∈ stale) :
    ∃ lease, (id, lease) ∈ leases ∧ pidAlive host lease.ownerPid = .ok false := by
  induction leases generalizing stale with
  | nil =>
    rw [staleIds] at h
    obtain rfl := Except.ok.inj h
    exact absurd hid (by simp)
  | cons entry leases ih =>
    obtain ⟨k, lease⟩ := entry
    rw [staleIds] at h
    split at h
    · exact absurd h (by simp)
    · exact absurd h (by simp)
    · next stale' _ hrest =>
      obtain rfl := Except.ok.inj h
      obtain ⟨lease', hmem, hdead⟩ := ih hrest hid
      exact ⟨lease', List.mem_cons_of_mem _ hmem, hdead⟩
    · next stale' hdead hrest =>
      obtain rfl := Except.ok.inj h
      rcases List.mem_cons.mp hid with rfl | hid
      · exact ⟨lease, List.mem_cons_self, hdead⟩
      · obtain ⟨lease', hmem, hdead'⟩ := ih hrest hid
        exact ⟨lease', List.mem_cons_of_mem _ hmem, hdead'⟩

/-- The owners of granted leases can be asked for. -/
theorem staleIds_ok {leases : List (Str × Lease)}
    (h : ∀ entry ∈ leases, entry.2.ownerPid ≤ pidMax) : ∃ stale, staleIds host leases = .ok stale := by
  induction leases with
  | nil => exact ⟨[], rfl⟩
  | cons entry leases ih =>
    obtain ⟨stale, hstale⟩ := ih fun entry' h' => h entry' (List.mem_cons_of_mem _ h')
    have hle : entry.2.ownerPid ≤ pidMax := h entry List.mem_cons_self
    have halive : ∃ alive, pidAlive host entry.2.ownerPid = .ok alive := by
      unfold pidAlive
      by_cases hpos : entry.2.ownerPid ≤ 0
      · exact ⟨false, if_pos hpos⟩
      · exact ⟨_, by rw [if_neg hpos, if_neg (not_lt.mpr hle)]⟩
    obtain ⟨alive, halive⟩ := halive
    rcases alive with _ | _
    · exact ⟨entry.1 :: stale, by rw [staleIds, halive, hstale]⟩
    · exact ⟨stale, by rw [staleIds, halive, hstale]⟩

/-! ### Runs -/

/-- A step of the broker. -/
inductive Event where
  | request (d : Dict)
  | reap
  | maintain
  | idleTest
  /-- the ssh child exits -/
  | exit

/-- The server after a step. -/
def after (py : Py) (host : Host) (s : Server) : Event → Server
  | .request d => (response py host s d).1
  | .reap => (reapLeases host s).1
  | .maintain => (maintainTunnel host s).1
  | .idleTest => s
  | .exit => { s with ssh := s.ssh.map fun child => { child with exited := true } }

/-- The lease a step grants, with its specification. -/
def granted (py : Py) (host : Host) (s : Server) : Event → Option (Str × TunnelSpec)
  | .request d =>
    if get d (lit "command") = .str (lit "acquire") then
      match acquireFields py host d, (acquire py host s d).2 with
      | .ok r, .ok _ => some (r.leaseId, r.spec)
      | _, _ => none
    else none
  | _ => none

/-- The grants so far, and one more. -/
def record (under : Str → Option TunnelSpec) :
    Option (Str × TunnelSpec) → Str → Option TunnelSpec
  | none => under
  | some (id, spec) => Function.update under id (some spec)

/-- A step ends the loop: a request has asked for it, or the broker has been idle. -/
def Ends (py : Py) (host : Host) (idleSeconds : ℚ) (s : Server) (e : Event) : Prop :=
  match e with
  | .request d => (response py host s d).1.stopRequested = true
  | .idleTest => idle host idleSeconds s = true
  | _ => False

/-- The states of a run, each with the specification under which each lease was last granted. -/
inductive Run (py : Py) (now : ℚ) : Server → (Str → Option TunnelSpec) → Prop where
  | start : Run py now (newServer now) fun _ => none
  | step {s under} (host : Host) (e : Event) : Run py now s under → s.stopRequested = false →
      Run py now (after py host s e) (record under (granted py host s e))

/-- One state follows another in a run. -/
def Next (py : Py) (s s' : Server) : Prop :=
  s.stopRequested = false ∧ ∃ host e, s' = after py host s e

/-- What follows a state in its run. -/
abbrev Later (py : Py) : Server → Server → Prop := Relation.ReflTransGen (Next py)

/-- Why a step takes a lease away. -/
def LostBy (py : Py) (host : Host) (e : Event) (entry : Str × Lease) : Prop :=
  (∃ d, e = .request d ∧ get d (lit "command") = .str (lit "release") ∧
      textOf py (get d (lit "leaseId")) = entry.1) ∨
    e = .reap ∧ pidAlive host entry.2.ownerPid = .ok false

/-- What holds after a step. -/
structure Kept (py : Py) (host : Host) (s : Server) (e : Event) (s' : Server)
    (under : Str → Option TunnelSpec) : Prop where
  inv : Inv s' under
  stepped : Stepped host s s'
  lost : ∀ entry ∈ s.leases, entry.1 ∉ s'.leases.map Prod.fst → LostBy py host e entry

theorem Stepped.refl (host : Host) (s : Server) : Stepped host s s :=
  ⟨.refl s, (Tunnel.refl host s).readied, fun h => absurd rfl h⟩

/-- A step that changes nothing. -/
theorem kept_refl {under : Str → Option TunnelSpec} (hinv : Inv s under) (e : Event) :
    Kept py host s e s under :=
  ⟨hinv, .refl host s, fun _ hmem hlost => absurd (List.mem_map_of_mem hmem) hlost⟩

/-- How an `acquire` request ends. -/
theorem acquire_cases (py : Py) (host : Host) (s : Server) (d : Dict) :
    (∃ e, acquire py host s d = (s, .error e)) ∨
      ∃ r, acquireFields py host d = .ok r ∧ acquireChecks host s r = .ok () ∧
        ((∃ e failed, acquireTunnel host s r.spec = (failed, .error e) ∧
            acquire py host s d = (failed, .error e)) ∨
          ∃ tunnel document, acquireTunnel host s r.spec = (tunnel, .ok ()) ∧
            acquire py host s d = ({ tunnel with
              leases := setLease tunnel.leases r.leaseId ⟨r.ownerPid, host.time⟩ }, .ok document)) := by
  unfold acquire
  rcases acquireFields py host d with e | r
  · exact Or.inl ⟨e, rfl⟩
  · simp only
    rcases hchecks : acquireChecks host s r with e | u
    · exact Or.inl ⟨e, rfl⟩
    · refine Or.inr ⟨r, rfl, hchecks, ?_⟩
      rcases htunnel : acquireTunnel host s r.spec with ⟨tunnel, e | u⟩
      · exact Or.inl ⟨e, tunnel, rfl, rfl⟩
      · exact Or.inr ⟨tunnel, _, rfl, rfl⟩

/-- **Acquiring a lease.** -/
theorem acquire_kept {under : Str → Option TunnelSpec} (hinv : Inv s under)
    (hrunning : s.stopRequested = false) {d : Dict}
    (hcommand : get d (lit "command") = .str (lit "acquire")) :
    Kept py host s (.request d) (acquire py host s d).1
      (record under (granted py host s (.request d))) := by
  rw [granted, if_pos hcommand]
  rcases acquire_cases py host s d with ⟨e, h⟩ | ⟨r, hfields, hchecks, h⟩
  · rw [h]
    rcases acquireFields py host d with e' | r <;> exact kept_refl hinv _
  · rw [hfields]
    obtain ⟨hpid, hsame⟩ := acquireChecks_ok hchecks
    -- with live leases the request names the tunnel there is
    have hspec : s.leases ≠ [] → s.spec = some r.spec := by
      intro hlive
      obtain ⟨spec, hspec, -⟩ := hinv.spec hlive
      exact (hsame hlive (by simp [hspec])).symm
    rcases h with ⟨e, failed, htunnel, h⟩ | ⟨tunnel, document, htunnel, h⟩
    · rw [h]
      obtain ⟨hleases, hstop, hport, hready, hown, hstarted, hchange, -⟩ :=
        acquireTunnel_spec host hinv.backend hinv.started r.spec htunnel
      have hkeep : s.leases ≠ [] → failed.spec = s.spec := by
        intro hlive
        rcases hchange with heq | hdiff
        · exact heq
        · exact absurd (hspec hlive).symm hdiff
      refine ⟨⟨?_, ?_, hstarted, hown, ?_, ?_, ?_⟩,
        ⟨hport, hready, fun hne => not_not.mp fun hlive => hne (hkeep hlive)⟩, ?_⟩
      · rw [hleases]
        intro hlive
        rw [hkeep hlive]
        exact hinv.spec hlive
      · rw [hleases]
        exact fun hlive => hport.ne_none (hinv.relay hlive)
      · rw [hstop, hleases]
        exact hinv.stop
      · rw [hleases]
        exact hinv.keys
      · rw [hleases]
        exact hinv.owners
      · intro entry hmem hlost
        rw [hleases] at hlost
        exact absurd (List.mem_map_of_mem hmem) hlost
    · rw [h]
      obtain ⟨hleases, hstop, hport, hready, hown, hstarted, -, hok⟩ :=
        acquireTunnel_spec host hinv.backend hinv.started r.spec htunnel
      obtain ⟨hnew, hstart, hrelay⟩ := hok rfl
      refine ⟨⟨fun _ => ⟨r.spec, hnew, hstart, ?_⟩, fun _ => hrelay, hstarted, hown, ?_, ?_, ?_⟩,
        ⟨hport, hready, ?_⟩, ?_⟩
      · intro entry hmem
        rw [record, Function.update_apply]
        by_cases hid : entry.1 = r.leaseId
        · rw [if_pos hid]
        · rw [if_neg hid]
          rcases mem_setLease hmem with rfl | hold
          · exact absurd rfl hid
          · rw [hleases] at hold
            have hlive : s.leases ≠ [] := List.ne_nil_of_mem hold
            obtain ⟨spec, hspec', -, hunder⟩ := hinv.spec hlive
            rw [hunder entry hold, ← hspec', hspec hlive]
      · intro hstopped
        exact absurd (hrunning.symm.trans (hstop.symm.trans hstopped)) (by simp)
      · show ((setLease tunnel.leases r.leaseId _).map Prod.fst).Nodup
        rw [keys_setLease, hleases]
        split
        · exact hinv.keys
        · next hfresh =>
          exact List.nodup_append.mpr ⟨hinv.keys, List.nodup_singleton _,
            fun k hk k' hk' heq => hfresh (List.mem_singleton.mp hk' ▸ heq ▸ hk)⟩
      · intro entry hmem
        rcases mem_setLease hmem with rfl | hold
        · exact hpid
        · exact hinv.owners entry (hleases ▸ hold)
      · intro hne
        by_contra hlive
        exact hne (hnew.trans (hspec hlive).symm)
      · intro entry hmem hlost
        have hkey : entry.1 ∈ s.leases.map Prod.fst := List.mem_map_of_mem hmem
        have hlost : entry.1 ∉ (setLease tunnel.leases r.leaseId ⟨r.ownerPid, host.time⟩).map
            Prod.fst := hlost
        rw [keys_setLease, hleases] at hlost
        split at hlost
        · exact absurd hkey hlost
        · exact absurd (List.mem_append_left _ hkey) hlost

/-- Fewer leases keep the invariant. -/
theorem Inv.filter {under : Str → Option TunnelSpec} (hinv : Inv s under)
    (p : Str × Lease → Bool) (released : ℚ) :
    Inv { s with leases := s.leases.filter p, lastRelease := released } under := by
  have hsub : ∀ {entry}, entry ∈ s.leases.filter p → entry ∈ s.leases :=
    fun h => (List.mem_filter.mp h).1
  refine ⟨fun hlive => ?_, fun hlive => ?_, hinv.started, hinv.backend, fun hstopped => ?_, ?_,
    fun entry hmem => hinv.owners entry (hsub hmem)⟩
  · obtain ⟨entry, hmem⟩ := List.exists_mem_of_ne_nil _ hlive
    obtain ⟨spec, hspec, hstart, hunder⟩ := hinv.spec (List.ne_nil_of_mem (hsub hmem))
    exact ⟨spec, hspec, hstart, fun entry hmem => hunder entry (hsub hmem)⟩
  · obtain ⟨entry, hmem⟩ := List.exists_mem_of_ne_nil _ hlive
    exact hinv.relay (List.ne_nil_of_mem (hsub hmem))
  · show s.leases.filter p = []
    rw [hinv.stop hstopped]
    rfl
  · exact hinv.keys.sublist (List.filter_sublist.map Prod.fst)

/-- A lease that is filtered away. -/
theorem not_kept_of_lost {leases : List (Str × Lease)} {p : Str × Lease → Bool} {entry : Str × Lease}
    (hmem : entry ∈ leases) (hlost : entry.1 ∉ (leases.filter p).map Prod.fst) : p entry = false := by
  by_contra hkept
  exact hlost (List.mem_map_of_mem (List.mem_filter.mpr ⟨hmem, by simpa using hkept⟩))

/-- **Any control request.** -/
theorem response_kept {under : Str → Option TunnelSpec} (hinv : Inv s under)
    (hrunning : s.stopRequested = false) (d : Dict) :
    Kept py host s (.request d) (response py host s d).1
      (record under (granted py host s (.request d))) := by
  by_cases hacquire : get d (lit "command") = .str (lit "acquire")
  · have hresponse : response py host s d = acquire py host s d := by
      unfold response
      rw [hacquire]
      rfl
    rw [hresponse]
    exact acquire_kept hinv hrunning hacquire
  · rw [granted, if_neg hacquire]
    unfold response
    simp only [if_neg hacquire]
    split_ifs with hping hstatus hrelease hshutdown hlive
    · exact kept_refl hinv _
    · exact kept_refl hinv _
    · refine ⟨hinv.filter _ _, ⟨.refl s, (Tunnel.refl host s).readied, fun h => absurd rfl h⟩, ?_⟩
      intro entry hmem hlost
      have hid := not_kept_of_lost hmem hlost
      exact Or.inl ⟨d, rfl, hrelease, by simpa using Eq.symm (by simpa using hid)⟩
    · exact kept_refl hinv _
    · refine ⟨⟨hinv.spec, hinv.relay, hinv.started, hinv.backend, fun _ => not_not.mp hlive, hinv.keys,
        hinv.owners⟩, ⟨.refl s, (Tunnel.refl host s).readied, fun h => absurd rfl h⟩, ?_⟩
      intro entry hmem
      exact absurd (not_not.mp hlive ▸ hmem) (by simp)
    · exact kept_refl hinv _

/-- **Reaping.** -/
theorem reap_kept {under : Str → Option TunnelSpec} (hinv : Inv s under) :
    Kept py host s .reap (reapLeases host s).1 under := by
  unfold reapLeases
  split
  · exact kept_refl hinv _
  · next stale hstale =>
    have hlost : ∀ entry ∈ s.leases,
        entry.1 ∉ (s.leases.filter fun entry => entry.1 ∉ stale).map Prod.fst →
          LostBy py host .reap entry := by
      intro entry hmem hgone
      have hid : entry.1 ∈ stale := by simpa using not_kept_of_lost hmem hgone
      obtain ⟨lease, hlease, hdead⟩ := mem_staleIds hstale hid
      have heq : entry = (entry.1, lease) :=
        List.inj_on_of_nodup_map hinv.keys hmem hlease rfl
      rw [heq]
      exact Or.inr ⟨rfl, hdead⟩
    dsimp only
    split_ifs with hlast
    · exact ⟨hinv.filter _ _,
        ⟨.refl s, (Tunnel.refl host s).readied, fun h => absurd rfl h⟩, hlost⟩
    · exact ⟨hinv.filter _ _,
        ⟨.refl s, (Tunnel.refl host s).readied, fun h => absurd rfl h⟩, hlost⟩

/-- A step of the tunnel that leaves the leases alone. -/
theorem kept_of_tunnel {under : Str → Option TunnelSpec} (hinv : Inv s under) (s' : Server)
    (h : Tunnel host s s') (hown : BackendOwned s') (hstarted : Started s') (e : Event) :
    Kept py host s e s' under := by
  refine ⟨⟨?_, ?_, hstarted, hown, ?_, ?_, ?_⟩, ⟨h.port, h.readied, fun hne => absurd h.spec hne⟩, ?_⟩
  · rw [h.leases, h.spec]
    exact hinv.spec
  · rw [h.leases]
    exact fun hlive => h.port.ne_none (hinv.relay hlive)
  · rw [h.stop, h.leases]
    exact hinv.stop
  · rw [h.leases]
    exact hinv.keys
  · rw [h.leases]
    exact hinv.owners
  · intro entry hmem hlost
    rw [h.leases] at hlost
    exact absurd (List.mem_map_of_mem hmem) hlost

/-- Noticing that the child has exited. -/
theorem noticeExit_spec (host : Host) {s : Server} (hown : BackendOwned s) :
    Tunnel host s (noticeExit host s) ∧ BackendOwned (noticeExit host s) ∧
      (noticeExit host s).generation = s.generation ∧
      ((noticeExit host s).ssh = none ∨ noticeExit host s = s) := by
  unfold noticeExit
  split
  · exact ⟨.refl host s, hown, rfl, Or.inr rfl⟩
  · split_ifs with hexited
    · have hdrop := tunnel_drop host s
      exact ⟨⟨rfl, rfl, rfl, hdrop.port, hdrop.readied⟩, backendOwned_none { s with ssh := none },
        rfl, Or.inl rfl⟩
    · exact ⟨.refl host s, hown, rfl, Or.inr rfl⟩

/-- How the maintenance of the tunnel ends. -/
theorem maintainTunnel_cases (host : Host) (s : Server) :
    ((noticeExit host s).restartDue host = false ∧
        maintainTunnel host s = (noticeExit host s, .ok ())) ∨
      (noticeExit host s).restartDue host = true ∧
        ((startSsh host (noticeExit host s)).2 = .ok () ∧
            maintainTunnel host s = ((startSsh host (noticeExit host s)).1, .ok ()) ∨
          ∃ e, (startSsh host (noticeExit host s)).2 = .error e ∧
            ((e.isRuntimeError = true ∧ ∃ retryAt delay, maintainTunnel host s =
                ({ (startSsh host (noticeExit host s)).1 with
                  nextRestartAt := retryAt, restartDelay := delay }, .ok ())) ∨
              e.isRuntimeError = false ∧
                maintainTunnel host s = ((startSsh host (noticeExit host s)).1, .error e))) := by
  unfold maintainTunnel
  dsimp only
  by_cases hdue : (noticeExit host s).restartDue host = true
  · rw [if_pos hdue]
    refine Or.inr ⟨hdue, ?_⟩
    rcases startSsh host (noticeExit host s) with ⟨t, e | u⟩
    · refine Or.inr ⟨e, rfl, ?_⟩
      by_cases hruntime : e.isRuntimeError = true
      · exact Or.inl ⟨hruntime, _, _, if_pos hruntime⟩
      · exact Or.inr ⟨by simpa using hruntime, if_neg hruntime⟩
    · exact Or.inl ⟨rfl, rfl⟩
  · exact Or.inl ⟨by simpa using hdue, if_neg hdue⟩

/-- A start is due only without a child. -/
theorem ssh_of_restartDue {s : Server} (h : s.restartDue host = true) : s.ssh = none := by
  simp only [Server.restartDue, Bool.and_eq_true, Option.isNone_iff_eq_none] at h
  exact h.1.2

/-- **Maintaining the tunnel.** -/
theorem maintain_kept {under : Str → Option TunnelSpec} (hinv : Inv s under) :
    Kept py host s .maintain (maintainTunnel host s).1 under := by
  obtain ⟨hnotice, hown, hgen, hchild⟩ := noticeExit_spec host hinv.backend
  rcases maintainTunnel_cases host s with ⟨-, h⟩ | ⟨hdue, h⟩
  · rw [h]
    refine kept_of_tunnel hinv _ hnotice hown (fun hssh => ?_) _
    rcases hchild with hnone | hsame
    · exact absurd hnone hssh
    · rw [hsame] at hssh ⊢
      exact hinv.started hssh
  · obtain ⟨htunnel, hown', hok, herr⟩ := startSsh_spec host (ssh_of_restartDue hdue) hown
    have hall := hnotice.trans hgen htunnel
    have hstarted : Started (startSsh host (noticeExit host s)).1 := by
      intro hssh
      rcases hresult : (startSsh host (noticeExit host s)).2 with e | u
      · exact absurd (herr e hresult) hssh
      · rw [htunnel.spec]
        exact (hok hresult).2
    rcases h with ⟨-, h⟩ | ⟨e, -, ⟨-, retryAt, delay, h⟩ | ⟨-, h⟩⟩
    · rw [h]
      exact kept_of_tunnel hinv _ hall hown' hstarted _
    · rw [h]
      exact kept_of_tunnel hinv { (startSsh host (noticeExit host s)).1 with
          nextRestartAt := retryAt, restartDelay := delay }
        ⟨hall.spec, hall.leases, hall.stop, hall.port, hall.readied⟩ hown' hstarted _
    · rw [h]
      exact kept_of_tunnel hinv _ hall hown' hstarted _

/-- The child exits. -/
theorem exit_kept {under : Str → Option TunnelSpec} (hinv : Inv s under) :
    Kept py host s .exit (after py host s .exit) under := by
  refine kept_of_tunnel hinv (after py host s .exit) ⟨rfl, rfl, rfl, fun relay h => ⟨relay, h, rfl⟩,
    Or.inl ⟨rfl, fun child h => ?_⟩⟩ ?_ ?_ _
  · obtain ⟨old, hold, rfl⟩ := Option.map_eq_some_iff.mp h
    exact ⟨old, hold, rfl, rfl⟩
  · intro relay port hr hb
    obtain ⟨child, hchild, hport⟩ := hinv.backend relay port hr hb
    exact ⟨{ child with exited := true }, Option.map_eq_some_iff.mpr ⟨child, hchild, rfl⟩, hport⟩
  · intro hssh
    exact hinv.started fun hnone => hssh (by simp [after, hnone])

/-- **Every step.** -/
theorem step_kept {under : Str → Option TunnelSpec} (hinv : Inv s under)
    (hrunning : s.stopRequested = false) (e : Event) :
    Kept py host s e (after py host s e) (record under (granted py host s e)) := by
  cases e with
  | request d => exact response_kept hinv hrunning d
  | reap => exact reap_kept hinv
  | maintain => exact maintain_kept hinv
  | idleTest => exact kept_refl hinv _
  | exit => exact exit_kept hinv

/-- **Every state of a run.** -/
theorem Run.inv {now : ℚ} {under : Str → Option TunnelSpec} (h : Run py now s under) :
    Inv s under := by
  induction h with
  | start =>
    exact ⟨fun h => absurd rfl h, fun h => absurd rfl h, fun h => absurd rfl h, fun _ _ h => absurd h (by simp [newServer]),
      fun _ => rfl, List.nodup_nil, fun _ h => absurd h (by simp [newServer])⟩
  | step host e _ hrunning ih => exact (step_kept ih hrunning e).inv

/-- What follows a state of a run is a state of a run. -/
theorem Run.later {now : ℚ} {under : Str → Option TunnelSpec} (h : Run py now s under)
    {s' : Server} (hlater : Later py s s') :
    (∃ under', Run py now s' under') ∧ KeepsPort s s' ∧ s.generation ≤ s'.generation := by
  induction hlater with
  | refl => exact ⟨⟨under, h⟩, .refl s, le_rfl⟩
  | tail _ hnext ih =>
    obtain ⟨⟨under', hrun⟩, hport, hgen⟩ := ih
    obtain ⟨hrunning, host, e, rfl⟩ := hnext
    have hstepped := (@step_kept py host _ _ hrun.inv hrunning e).stepped
    refine ⟨⟨_, hrun.step host e hrunning⟩, hport.trans hstepped.port, hgen.trans ?_⟩
    rcases hstepped.readied with ⟨heq, -⟩ | ⟨heq, -⟩ <;> omega

/-- A step that ends the loop ends it without leases. -/
theorem leases_of_ends {idleSeconds : ℚ} {under : Str → Option TunnelSpec} (hinv : Inv s under)
    (hrunning : s.stopRequested = false) {e : Event} (h : Ends py host idleSeconds s e) :
    (after py host s e).leases = [] := by
  cases e with
  | request d => exact (response_kept hinv hrunning d).inv.stop h
  | idleTest =>
    have hidle : (s.leases = [] && idleSeconds ≤ host.now - s.lastRelease : Bool) = true := h
    rw [Bool.and_eq_true] at hidle
    exact of_decide_eq_true hidle.1
  | reap => exact h.elim
  | maintain => exact h.elim
  | exit => exact h.elim

/-- **Live leases share the specification each was acquired under.** Only a step that starts without
leases changes it; a lease goes by its own release or with its owner; the loop ends without leases;
the public port stays; the generation counts the backends that have become ready; and the relay leads
only to the current child. -/
theorem leases_hold {now : ℚ} {under : Str → Option TunnelSpec} (h : Run py now s under) :
    (s.leases ≠ [] → ∃ spec, s.spec = some spec ∧
        ∀ entry ∈ s.leases, under entry.1 = some spec) ∧
      BackendOwned s ∧
      (∀ host e, s.stopRequested = false →
        ((after py host s e).spec ≠ s.spec → s.leases = []) ∧
        (∀ entry ∈ s.leases, entry.1 ∉ (after py host s e).leases.map Prod.fst →
          LostBy py host e entry) ∧
        (∀ idleSeconds, Ends py host idleSeconds s e → (after py host s e).leases = []) ∧
        Readied host s (after py host s e)) ∧
      ∀ s', Later py s s' → KeepsPort s s' ∧ s.generation ≤ s'.generation := by
  refine ⟨fun hlive => ?_, h.inv.backend, fun host e hrunning => ?_, fun s' hlater => ?_⟩
  · obtain ⟨spec, hspec, -, hunder⟩ := h.inv.spec hlive
    exact ⟨spec, hspec, hunder⟩
  · have hkept := @step_kept py host _ _ h.inv hrunning e
    exact ⟨hkept.stepped.spec, hkept.lost,
      fun idleSeconds hends => leases_of_ends h.inv hrunning hends, hkept.stepped.readied⟩
  · exact (h.later hlater).2

/-- A system on which ssh becomes ready. -/
def readyHost : Host :=
  { pid := 1, live := fun _ => true, isUuid := fun text => text.length = 36, intOfText := fun _ => none,
    message := fun _ => [], time := 0, now := 0, later := 0, last := 0, publicPort := some 20000,
    backendPort := some 30000, outcome := .ready 7, killHangs := false, sshBinary := lit "ssh" }

/-- A request for a lease. -/
def acquireRequest : Dict :=
  [(lit "command", .str (lit "acquire")), (lit "leaseId", .str (lit "00000000-0000-4000-8000-000000000000")),
    (lit "ownerPid", .int 5), (lit "sshHost", .str (lit "host")),
    (lit "forwardHost", .str (lit "localhost")), (lit "forwardPort", .int 80)]

/-- The server that has granted a lease. -/
def leased : Server :=
  after (Python.Dump.tablePy [] [] []) readyHost (newServer 0) (.request acquireRequest)

theorem leases_hold_leased :
    leased.leases ≠ [] ∧ (∃ spec, leased.spec = some spec) ∧ BackendOwned leased := by
  have hlive : leased.leases ≠ [] := by decide +kernel
  obtain ⟨hspec, hbackend, -⟩ :=
    leases_hold (Run.step readyHost (.request acquireRequest)
      (@Run.start (Python.Dump.tablePy [] [] []) 0) rfl)
  obtain ⟨spec, hspec, -⟩ := hspec hlive
  exact ⟨hlive, ⟨spec, hspec⟩, hbackend⟩

end Cloudx.Local.BrokerRuns
