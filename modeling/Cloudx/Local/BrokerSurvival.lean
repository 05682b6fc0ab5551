import Cloudx.Local.BrokerRuns

/-! # What takes the tunnel broker down

The handler of a connection catches `ValueError`, `OSError` and `RuntimeError`, the maintenance of the
tunnel only `RuntimeError`. An exception of another class ends the loop, and with it the tunnel of
every lease. This module says exactly when that happens. -/

namespace Cloudx.Local.BrokerSurvival

open Cloudx.Python.Text Cloudx.Python.Value
open Cloudx.Local.Broker Cloudx.Local.BrokerRuns

variable {py : Py} {host : Host} {s : Server}

/-! ### Starting ssh -/

/-- Whatever happens, a start raises one of the classes the handler catches. -/
theorem startSsh_caught {e : Raised} (h : (startSsh host s).2 = .error e) : e.isCaught = true := by
  have hspawn : ∀ (t : Server) (spec : TunnelSpec), (spawn host t spec).2 = .error e →
      e.isCaught = true := by
    intro t spec h
    unfold spawn at h
    split at h
    · obtain rfl := Except.error.inj h
      rfl
    · dsimp only at h
      split at h
      · obtain rfl := Except.error.inj h
        rfl
      · split at h <;> first | (obtain rfl := Except.error.inj h; rfl) | exact absurd h (by simp)
  unfold startSsh at h
  split at h
  · obtain rfl := Except.error.inj h
    rfl
  · split at h
    · exact hspawn _ _ h
    · obtain rfl := Except.error.inj h
      rfl
    · exact hspawn _ _ h

theorem ensureSsh_caught {e : Raised} (h : (ensureSsh host s).2 = .error e) :
    e.isCaught = true := by
  unfold ensureSsh at h
  split at h
  · split_ifs at h with hexited
    · exact startSsh_caught h
  · exact startSsh_caught h

/-- A start behind a relay, under a specification that can be passed to a process, raises something
else than `RuntimeError` only if no port is free or ssh cannot be run. -/
theorem startSsh_not_runtime_iff {spec : TunnelSpec} {relay : Relay} (hspec : s.spec = some spec)
    (hstart : spec.startable = true) (hrelay : s.relay = some relay) :
    (∃ e, (startSsh host s).2 = .error e ∧ e.isRuntimeError = false) ↔
      host.backendPort = none ∨ host.outcome = .refused := by
  have heq : startSsh host s = spawn host s spec := by
    unfold startSsh
    simp only [hspec, hrelay]
  rw [heq]
  unfold spawn
  split
  · next hport => exact ⟨fun _ => Or.inl hport, fun _ => ⟨.osError, rfl, rfl⟩⟩
  · next port hport =>
    simp only [hstart, Bool.not_true, Bool.false_eq_true, if_false]
    have hsome : host.backendPort ≠ none := by simp [hport]
    constructor
    · rintro ⟨e, h, hruntime⟩
      refine Or.inr ?_
      split at h
      · obtain rfl := Except.error.inj h
        exact absurd hruntime (by simp [Raised.isRuntimeError])
      · next houtcome => exact houtcome
      · obtain rfl := Except.error.inj h
        exact absurd hruntime (by simp [Raised.isRuntimeError])
      · obtain rfl := Except.error.inj h
        exact absurd hruntime (by simp [Raised.isRuntimeError])
      · exact absurd h (by simp)
    · rintro (hnone | houtcome)
      · exact absurd hnone hsome
      · rw [houtcome]
        exact ⟨.osError, rfl, rfl⟩

/-! ### Maintenance -/

/-- The running child and its relay are kept. -/
def TunnelKept (s s' : Server) : Prop :=
  ∀ child, s.ssh = some child → child.exited = false → s'.ssh = s.ssh ∧ s'.relay = s.relay

/-- A restart falls due: there is no child and its time has come, or the child has exited and the
delay is over at once. -/
def RestartFalls (host : Host) (s : Server) : Prop :=
  match s.ssh with
  | none => s.nextRestartAt ≤ host.later
  | some child => child.exited = true ∧ host.now + s.restartDelay ≤ host.later

/-- `_maintain_tunnel` returns and leaves leases, running child and relay as they are. -/
def Maintained (host : Host) (s : Server) : Prop :=
  (maintainTunnel host s).2 = .ok () ∧ (maintainTunnel host s).1.leases = s.leases ∧
    TunnelKept s (maintainTunnel host s).1

theorem restartDue_noticeExit (hlive : s.leases ≠ []) :
    (noticeExit host s).restartDue host = true ↔ RestartFalls host s := by
  unfold RestartFalls noticeExit
  rcases hssh : s.ssh with _ | child
  · simp [Server.restartDue, hlive, hssh]
  · by_cases hexited : child.exited = true
    · simp [hexited, Server.restartDue, Server.setBackend, hlive]
    · simp [hexited, Server.restartDue, hssh]

theorem noticeExit_running (host : Host) {child : Child} (hssh : s.ssh = some child)
    (hrunning : child.exited = false) : noticeExit host s = s := by
  unfold noticeExit
  simp only [hssh, hrunning, Bool.false_eq_true, if_false]

/-- Maintenance leaves a running child and its relay alone. -/
theorem maintainTunnel_kept : TunnelKept s (maintainTunnel host s).1 := by
  intro child hssh hrunning
  have hnotice := noticeExit_running host hssh hrunning
  rcases maintainTunnel_cases host s with ⟨-, h⟩ | ⟨hdue, -⟩
  · rw [h, hnotice]
    exact ⟨rfl, rfl⟩
  · rw [hnotice] at hdue
    exact absurd (ssh_of_restartDue hdue) (by simp [hssh])

/-- **When maintenance survives.** -/
theorem maintained_iff {under : Str → Option TunnelSpec} (hinv : Inv s under)
    (hlive : s.leases ≠ []) :
    Maintained host s ↔
      ¬ (RestartFalls host s ∧ (host.backendPort = none ∨ host.outcome = .refused)) := by
  obtain ⟨spec, hspec, hstart, -⟩ := hinv.spec hlive
  obtain ⟨hnotice, hown, -, -⟩ := noticeExit_spec host hinv.backend
  obtain ⟨relay, hrelay⟩ :=
    Option.ne_none_iff_exists'.mp (hnotice.port.ne_none (hinv.relay hlive))
  have hraises := @startSsh_not_runtime_iff host _ _ _ (hnotice.spec.trans hspec) hstart hrelay
  rw [← restartDue_noticeExit hlive, ← hraises]
  have hkeeps : (maintainTunnel host s).1.leases = s.leases := by
    rcases maintainTunnel_cases host s with ⟨-, h⟩ | ⟨hdue, h⟩
    · rw [h]
      exact hnotice.leases
    · have htunnel := (startSsh_spec host (ssh_of_restartDue hdue) hown).1
      rcases h with ⟨-, h⟩ | ⟨e, -, ⟨-, retryAt, delay, h⟩ | ⟨-, h⟩⟩
      · rw [h]
        exact htunnel.leases.trans hnotice.leases
      · rw [h]
        exact htunnel.leases.trans hnotice.leases
      · rw [h]
        exact htunnel.leases.trans hnotice.leases
  constructor
  · rintro ⟨hreturns, -, -⟩ ⟨hdue, e, herror, hruntime⟩
    rcases maintainTunnel_cases host s with ⟨hno, -⟩ | ⟨-, h⟩
    · exact absurd (hno.symm.trans hdue) (by simp)
    · rcases h with ⟨hok, -⟩ | ⟨e', herror', ⟨hruntime', -⟩ | ⟨-, h⟩⟩
      · exact absurd (hok.symm.trans herror) (by simp)
      · obtain rfl := Except.error.inj (herror.symm.trans herror')
        exact absurd (hruntime.symm.trans hruntime') (by simp)
      · rw [h] at hreturns
        exact absurd hreturns (by simp)
  · intro hfine
    refine ⟨?_, hkeeps, maintainTunnel_kept⟩
    rcases maintainTunnel_cases host s with ⟨-, h⟩ | ⟨hdue, h⟩
    · rw [h]
    · rcases h with ⟨-, h⟩ | ⟨e, herror, ⟨-, _, _, h⟩ | ⟨hruntime, -⟩⟩
      · rw [h]
      · rw [h]
      · exact absurd ⟨hdue, e, herror, hruntime⟩ hfine

/-- Reaping returns. -/
theorem reapLeases_returns {under : Str → Option TunnelSpec} (hinv : Inv s under) :
    (reapLeases host s).2 = .ok () := by
  obtain ⟨stale, hstale⟩ := @staleIds_ok host _ hinv.owners
  unfold reapLeases
  rw [hstale]
  dsimp only
  split_ifs <;> rfl

/-! ### Control requests -/

/-- `int(value or 0)` raises what the handler does not catch: `TypeError` for a list or an object
that is not empty, `OverflowError` for an infinity. -/
def Unconvertible : Json → Prop
  | .arr items => items ≠ []
  | .obj fields => fields ≠ []
  | .float .inf | .float .negInf => True
  | _ => False

/-- An `acquire` request raises nothing but what is caught. -/
def Harmless (py : Py) (host : Host) (d : Dict) : Prop :=
  get d (lit "command") = .str (lit "acquire") →
    ¬ Unconvertible (get d (lit "ownerPid")) ∧
      ∀ ownerPid, intOf host (get d (lit "ownerPid")) = .ok ownerPid →
        ¬ Unconvertible (get d (lit "forwardPort")) ∧
          ∀ forwardPort, intOf host (get d (lit "forwardPort")) = .ok forwardPort →
            host.isUuid (textOf py (get d (lit "leaseId"))) = true → ownerPid ≤ pidMax

/-- A result raises what the handler does not catch. -/
def Escapes {α : Type} (result : Except Raised α) : Prop :=
  ∃ e, result = .error e ∧ e.isCaught = false

theorem intOf_escapes_iff (host : Host) (value : Json) :
    Escapes (intOf host value) ↔ Unconvertible value := by
  unfold intOf Escapes
  cases value with
  | null => simp [truthy, Unconvertible]
  | bool b => cases b <;> simp [truthy, Unconvertible]
  | int n =>
    by_cases hn : n = 0 <;> simp [truthy, Unconvertible, hn]
  | float x =>
    cases x with
    | finite q => by_cases hq : q = 0 <;> simp [truthy, Unconvertible, hq]
    | inf => simp [truthy, Unconvertible, Raised.isCaught, Raised.isRuntimeError]
    | negInf => simp [truthy, Unconvertible, Raised.isCaught, Raised.isRuntimeError]
    | nan => simp [truthy, Unconvertible, Raised.isCaught]
  | str text =>
    by_cases htext : text = []
    · simp [truthy, Unconvertible, htext]
    · rcases hint : host.intOfText text with _ | n <;>
        simp [truthy, Unconvertible, htext, hint, Raised.isCaught]
  | arr items =>
    cases items <;> simp [truthy, Unconvertible, Raised.isCaught, Raised.isRuntimeError]
  | obj fields =>
    cases fields <;> simp [truthy, Unconvertible, Raised.isCaught, Raised.isRuntimeError]

theorem acquireFields_escapes_iff (py : Py) (host : Host) (d : Dict) :
    Escapes (acquireFields py host d) ↔
      Unconvertible (get d (lit "ownerPid")) ∨
        ∃ ownerPid, intOf host (get d (lit "ownerPid")) = .ok ownerPid ∧
          Unconvertible (get d (lit "forwardPort")) := by
  rw [← intOf_escapes_iff host (get d (lit "ownerPid")),
    ← intOf_escapes_iff host (get d (lit "forwardPort"))]
  unfold acquireFields
  rcases intOf host (get d (lit "ownerPid")) with e | ownerPid
  · simp [Escapes]
  · rcases intOf host (get d (lit "forwardPort")) with e | forwardPort <;> simp [Escapes]

theorem acquireChecks_escapes_iff (host : Host) (s : Server) (r : Request) :
    Escapes (acquireChecks host s r) ↔ host.isUuid r.leaseId = true ∧ pidMax < r.ownerPid := by
  unfold acquireChecks
  by_cases huuid : host.isUuid r.leaseId = true
  · simp only [huuid, Bool.not_true, Bool.false_eq_true, if_false, true_and]
    unfold pidAlive
    by_cases hpos : r.ownerPid ≤ 0
    · have hle : ¬ pidMax < r.ownerPid := by
        unfold pidMax
        omega
      simp [hpos, hle, Escapes, Raised.isCaught, Raised.isRuntimeError]
    · by_cases hmax : pidMax < r.ownerPid
      · simp [hpos, hmax, Escapes, Raised.isCaught, Raised.isRuntimeError]
      · simp only [if_neg hpos, hmax, if_false, iff_false]
        rcases host.live r.ownerPid with _ | _
        · simp [Escapes, Raised.isCaught, Raised.isRuntimeError]
        · split_ifs <;> simp [Escapes, Raised.isCaught, Raised.isRuntimeError]
  · simp [huuid, Escapes, Raised.isCaught, Raised.isRuntimeError]

/-- With live leases an `acquire` request that passes the checks is about the tunnel there is. -/
theorem acquireTunnel_live {under : Str → Option TunnelSpec} (hinv : Inv s under)
    (hlive : s.leases ≠ []) {r : Request} (hchecks : acquireChecks host s r = .ok ()) :
    acquireTunnel host s r.spec = ensureSsh host s := by
  obtain ⟨spec, hspec, -⟩ := hinv.spec hlive
  have hsame := (acquireChecks_ok hchecks).2 hlive (by simp [hspec])
  unfold acquireTunnel
  rw [if_neg (not_not.mpr hsame)]

/-- **When an `acquire` request escapes.** -/
theorem acquire_escapes_iff {under : Str → Option TunnelSpec} (hinv : Inv s under)
    (hlive : s.leases ≠ []) {d : Dict} (hcommand : get d (lit "command") = .str (lit "acquire")) :
    Escapes (acquire py host s d).2 ↔ ¬ Harmless py host d := by
  have hharmless : ¬ Harmless py host d ↔ Escapes (acquireFields py host d) ∨
      ∃ r, acquireFields py host d = .ok r ∧ Escapes (acquireChecks host s r) := by
    rw [acquireFields_escapes_iff]
    simp only [acquireChecks_escapes_iff, Harmless, hcommand, true_implies]
    unfold acquireFields
    rcases intOf host (get d (lit "ownerPid")) with e | ownerPid
    · simp
    · rcases intOf host (get d (lit "forwardPort")) with e | forwardPort
      · simp
        tauto
      · simp
        tauto
  rw [hharmless]
  rcases hfields : acquireFields py host d with e | r
  · have hacquire : (acquire py host s d).2 = .error e := by rw [acquire, hfields]
    rw [hacquire]
    simp [Escapes]
  · rcases hchecks : acquireChecks host s r with e | u
    · have hacquire : (acquire py host s d).2 = .error e := by
        rw [acquire, hfields]
        simp only [hchecks]
      rw [hacquire]
      simp [Escapes, hchecks]
    · -- only the tunnel is left, and it raises what is caught
      have hno : ¬ Escapes (acquire py host s d).2 := by
        rintro ⟨e, herror, huncaught⟩
        have htunnel : (ensureSsh host s).2 = .error e := by
          rw [← acquireTunnel_live hinv hlive hchecks]
          rw [acquire, hfields] at herror
          simp only [hchecks] at herror
          split at herror
          · next failed e' h =>
            rw [h]
            obtain rfl := Except.error.inj herror
            rfl
          · exact absurd herror (by simp)
        exact absurd (ensureSsh_caught htunnel) (by simp [huncaught])
      constructor
      · exact fun h => absurd h hno
      · rintro (⟨e, herror, -⟩ | ⟨r', hr', e, herror, -⟩)
        · exact absurd herror (by simp)
        · obtain rfl := Except.ok.inj hr'
          exact absurd (hchecks.symm.trans herror) (by simp)

/-- With live leases an `acquire` request leaves a running child and its relay alone. -/
theorem acquire_tunnelKept {under : Str → Option TunnelSpec} (hinv : Inv s under)
    (hlive : s.leases ≠ []) (d : Dict) : TunnelKept s (acquire py host s d).1 := by
  intro child hssh hrunning
  rcases acquire_cases py host s d with ⟨e, h⟩ | ⟨r, -, hchecks, h⟩
  · rw [h]
    exact ⟨rfl, rfl⟩
  · have hensure : acquireTunnel host s r.spec = (s, .ok ()) := by
      rw [acquireTunnel_live hinv hlive hchecks]
      unfold ensureSsh
      simp only [hssh, hrunning, Bool.false_eq_true, if_false]
    rcases h with ⟨e, failed, htunnel, -⟩ | ⟨tunnel, document, htunnel, h⟩
    · exact absurd (congrArg Prod.snd (hensure.symm.trans htunnel)) (by simp)
    · obtain rfl := congrArg Prod.fst (hensure.symm.trans htunnel)
      rw [h]
      exact ⟨rfl, rfl⟩

/-- **A control request under live leases.** -/
theorem response_live {under : Str → Option TunnelSpec} (hinv : Inv s under)
    (hlive : s.leases ≠ []) (d : Dict) :
    (Escapes (response py host s d).2 ↔ ¬ Harmless py host d) ∧
      TunnelKept s (response py host s d).1 ∧
      (response py host s d).1.stopRequested = s.stopRequested := by
  by_cases hacquire : get d (lit "command") = .str (lit "acquire")
  · have hresponse : response py host s d = acquire py host s d := by
      unfold response
      rw [hacquire]
      rfl
    rw [hresponse]
    refine ⟨acquire_escapes_iff hinv hlive hacquire, acquire_tunnelKept hinv hlive d, ?_⟩
    rcases acquire_cases py host s d with ⟨e, h⟩ | ⟨r, -, -, h⟩
    · rw [h]
    · rcases h with ⟨e, failed, htunnel, h⟩ | ⟨tunnel, document, htunnel, h⟩
      · rw [h]
        exact (acquireTunnel_spec host hinv.backend hinv.started r.spec htunnel).2.1
      · rw [h]
        exact (acquireTunnel_spec host hinv.backend hinv.started r.spec htunnel).2.1
  · have hharmless : ¬ ¬ Harmless py host d := not_not.mpr fun h => absurd h hacquire
    unfold response
    simp only [if_neg hacquire]
    split_ifs with hping hstatus hrelease hshutdown
    all_goals
      refine ⟨iff_of_false ?_ hharmless, fun _ _ _ => ⟨rfl, rfl⟩, rfl⟩
      simp [Escapes, release, Raised.isCaught, Raised.isRuntimeError]

/-! ### Connections -/

/-- The JSON decoder raises nothing beyond decode errors but `RecursionError` and `ValueError`. -/
def DecoderRaises (py : Py) : Prop :=
  ∀ raw e, py.loads raw = .raised e → e = .recursion ∨ e = .value

/-- `_serve_connection` returns, the loop goes on, every lease that the client has not released
stays, and the running child and its relay are kept. -/
def Survives (py : Py) (host : Host) (s : Server) (chunks : List (Option Bytes)) : Prop :=
  (∃ document, (serveConnection py host s chunks).2 = .ok document) ∧
    (serveConnection py host s chunks).1.stopRequested = false ∧
    (∀ entry ∈ s.leases, entry.1 ∉ (serveConnection py host s chunks).1.leases.map Prod.fst →
      ∃ raw d, receive [] chunks = .ok raw ∧ decodeRequest py raw = .ok d ∧
        get d (lit "command") = .str (lit "release") ∧
        textOf py (get d (lit "leaseId")) = entry.1) ∧
    TunnelKept s (serveConnection py host s chunks).1

theorem receive_caught {raw : Bytes} {chunks : List (Option Bytes)} {e : Raised}
    (h : receive raw chunks = .error e) : e.isCaught = true := by
  induction chunks generalizing raw with
  | nil => exact absurd h (by simp [receive])
  | cons chunk chunks ih =>
    rcases chunk with _ | chunk
    · rw [receive] at h
      split_ifs at h
      obtain rfl := Except.error.inj h
      rfl
    · rw [receive] at h
      split_ifs at h
      exact ih h

theorem decodeRequest_caught (hdecoder : DecoderRaises py) {raw : Bytes} {e : Raised}
    (h : decodeRequest py raw = .error e) : e.isCaught = true := by
  unfold decodeRequest at h
  split_ifs at h
  · obtain rfl := Except.error.inj h
    rfl
  · split at h
    · next e' hloads =>
      obtain rfl := Except.error.inj h
      rcases hdecoder raw e' hloads with rfl | rfl <;> rfl
    · obtain rfl := Except.error.inj h
      rfl
    · obtain rfl := Except.error.inj h
      rfl
    · exact absurd h (by simp)
    · obtain rfl := Except.error.inj h
      rfl

/-- The handler returns unless what it does escapes. -/
theorem serveConnection_cases (py : Py) (host : Host) (s : Server) (chunks : List (Option Bytes)) :
    (serveConnection py host s chunks).1 = (answer py host s chunks).1 ∧
      ((∃ document, (serveConnection py host s chunks).2 = .ok document) ↔
        ¬ Escapes (answer py host s chunks).2) := by
  unfold serveConnection Escapes
  rcases answer py host s chunks with ⟨s', e | document⟩
  · by_cases hcaught : e.isCaught = true
    · simp [hcaught]
    · simp [hcaught]
  · simp

/-- **When a connection is survived**, under live leases. -/
theorem survives_iff (hdecoder : DecoderRaises py) {under : Str → Option TunnelSpec}
    (hinv : Inv s under) (hlive : s.leases ≠ []) (chunks : List (Option Bytes)) :
    Survives py host s chunks ↔
      ∀ raw d, receive [] chunks = .ok raw → decodeRequest py raw = .ok d →
        Harmless py host d := by
  have hrunning : s.stopRequested = false := by
    by_contra hstopped
    exact hlive (hinv.stop (by simpa using hstopped))
  obtain ⟨hstate, hreturns⟩ := serveConnection_cases py host s chunks
  unfold Survives
  rw [hstate, hreturns]
  have hquiet : ∀ e, e.isCaught = true → answer py host s chunks = (s, .error e) →
      ¬ Escapes (answer py host s chunks).2 ∧ (answer py host s chunks).1.stopRequested = false ∧
        (∀ entry ∈ s.leases, entry.1 ∉ (answer py host s chunks).1.leases.map Prod.fst →
          ∃ raw d, receive [] chunks = .ok raw ∧ decodeRequest py raw = .ok d ∧
            get d (lit "command") = .str (lit "release") ∧
            textOf py (get d (lit "leaseId")) = entry.1) ∧
        TunnelKept s (answer py host s chunks).1 := by
    intro e hcaught h
    rw [h]
    refine ⟨?_, hrunning, fun entry hmem hlost => absurd (List.mem_map_of_mem hmem) hlost,
      fun _ _ _ => ⟨rfl, rfl⟩⟩
    rintro ⟨e', he', huncaught⟩
    obtain rfl := Except.error.inj he'
    exact absurd hcaught (by simp [huncaught])
  rcases hreceive : receive [] chunks with e | raw
  · refine iff_of_true ?_ fun raw d h => absurd h (by simp)
    have hall := hquiet e (receive_caught hreceive) (by rw [answer, hreceive])
    rwa [hreceive] at hall
  · rcases hdecode : decodeRequest py raw with e | d
    · have hall := hquiet e (decodeRequest_caught hdecoder hdecode) (by
        rw [answer, hreceive]
        simp only [hdecode])
      rw [hreceive] at hall
      refine iff_of_true hall fun raw' d h h' => ?_
      obtain rfl := Except.ok.inj h
      exact absurd (hdecode.symm.trans h') (by simp)
    · have hanswer : answer py host s chunks = response py host s d := by
        rw [answer, hreceive]
        simp only [hdecode]
      rw [hanswer]
      obtain ⟨hescapes, hkept, hstop⟩ := @response_live py host s under hinv hlive d
      have hlost := (@response_kept py host s under hinv hrunning d).lost
      constructor
      · rintro ⟨hno, -⟩ raw' d' h h'
        obtain rfl := Except.ok.inj h
        obtain rfl := Except.ok.inj (hdecode.symm.trans h')
        by_contra hharm
        exact hno (hescapes.mpr hharm)
      · intro hharmless
        refine ⟨fun h => hescapes.mp h (hharmless raw d rfl hdecode), hstop.trans hrunning,
          fun entry hmem hgone => ?_, hkept⟩
        rcases hlost entry hmem hgone with ⟨d', hd', hrelease, hid⟩ | ⟨hreap, -⟩
        · obtain rfl := Event.request.inj hd'
          exact ⟨raw, d, rfl, hdecode, hrelease, hid⟩
        · exact absurd hreap (by simp)

/-- **The broker survives, under live leases, exactly** the connections that do not send an `acquire`
request with a number that cannot be converted or with a process id out of range, and the maintenance
in which no restart falls due while no port is free or ssh cannot be run. Reaping it always
survives. -/
theorem broker_survives_iff (hdecoder : DecoderRaises py) {now : ℚ}
    {under : Str → Option TunnelSpec} (h : Run py now s under) (hlive : s.leases ≠ [])
    (host : Host) :
    (∀ chunks, Survives py host s chunks ↔
        ∀ raw d, receive [] chunks = .ok raw → decodeRequest py raw = .ok d →
          Harmless py host d) ∧
      (Maintained host s ↔
        ¬ (RestartFalls host s ∧ (host.backendPort = none ∨ host.outcome = .refused))) ∧
      (reapLeases host s).2 = .ok () :=
  ⟨survives_iff hdecoder h.inv hlive, maintained_iff h.inv hlive, reapLeases_returns h.inv⟩

/-- The text of a request. -/
def requestBytes : Bytes :=
  (lit "\x7b\"command\":\"acquire\",\"ownerPid\":[1]\x7d").map fun c => UInt8.ofNat c

/-- An interpreter that decodes that text. -/
def requestPy : Py := Python.Dump.tablePy []
  [(requestBytes, .obj [(lit "command", .str (lit "acquire")), (lit "ownerPid", .arr [.int 1])])] []

theorem decoderRaises_requestPy : DecoderRaises requestPy := by
  intro raw e h
  have hloads : ∀ o : Option Json, (o.map Loaded.value).getD .jsonError ≠ .raised e := by
    intro o
    cases o <;> simp
  exact absurd h (hloads _)

theorem run_leased (py : Py)
    (h : after py readyHost (newServer 0) (.request acquireRequest) = leased) : ∃ under, Run py 0 leased under :=
  ⟨_, h ▸ Run.step readyHost (.request acquireRequest) Run.start rfl⟩

theorem broker_survives_iff_leased :
    (∃ document, (serveConnection requestPy readyHost leased [some [10]]).2 = .ok document) ∧
      (maintainTunnel readyHost leased).2 = .ok () := by
  obtain ⟨under, hrun⟩ := run_leased requestPy (by decide +kernel)
  obtain ⟨hserve, hmaintain, -⟩ := broker_survives_iff decoderRaises_requestPy hrun
    (by decide +kernel) readyHost
  refine ⟨((hserve [some [10]]).mpr fun raw d hraw hd => ?_).1, (hmaintain.mpr ?_).1⟩
  · have hreceive : receive [] [some [10]] = .ok [10] := by decide +kernel
    obtain rfl := Except.ok.inj (hreceive.symm.trans hraw)
    have herror : decodeRequest requestPy [10] = .error .valueError := by decide +kernel
    exact absurd (herror.symm.trans hd) (by simp)
  · rintro ⟨-, h | h⟩
    · exact absurd h (by decide)
    · exact absurd h (by decide)

/-- An owner given as a list raises `TypeError`, which nothing catches. -/
theorem list_owner_escapes :
    ¬ ∀ (py : Py) (now : ℚ) (s : Server) (under : Str → Option TunnelSpec), DecoderRaises py →
      Run py now s under → s.leases ≠ [] → ∀ host,
        (∀ chunks, ∃ document, (serveConnection py host s chunks).2 = .ok document) ∧
          (maintainTunnel host s).2 = .ok () := by
  intro hall
  obtain ⟨under, hrun⟩ := run_leased requestPy (by decide +kernel)
  obtain ⟨document, hdocument⟩ := (hall requestPy 0 leased under decoderRaises_requestPy hrun
    (by decide +kernel) readyHost).1 [some requestBytes, some []]
  have hraises : (serveConnection requestPy readyHost leased [some requestBytes, some []]).2 =
      .error .typeError := by decide +kernel
  exact absurd (hraises.symm.trans hdocument) (by simp)

end Cloudx.Local.BrokerSurvival
