import Cloudx.Local.LeaseRules

/-! # What a step of the broker does to the leases

A lease is there after a step only if it was there before or the step has granted it, to an owner that is
alive. The answer to the request that is granted names the lease and the port of the relay. -/

namespace Cloudx.Local.BrokerLeases

open Cloudx.Python.Text Cloudx.Python.Value
open Cloudx.Local.Broker Cloudx.Local.BrokerRuns Cloudx.Local.BrokerClient

variable {py : Py} {host : Host} {s : Server}

/-! ### Documents -/

theorem textOf_str (s : Str) : textOf py (.str s) = s := by
  have hor : pyOrs [.str s] = .str s := by
    unfold pyOrs pyOr
    by_cases h : truthy (.str s) = true
    · rw [if_pos h]
    · rw [if_neg h]
      have hnil : s = [] := by simpa [truthy] using h
      rw [hnil]
      rfl
  rw [textOf, hor, Py.str]

theorem intOf_int (n : ℤ) : intOf host (.int n) = .ok n := by
  unfold intOf
  by_cases h : n = 0
  · simp [truthy, h]
  · simp [truthy, h]

/-- The fields of the document of an `acquire`. -/
theorem get_acquire (lease : Str) (pid : ℤ) (spec : TunnelSpec) :
    Python.Value.get (acquireDocument lease pid spec) (lit "command") = .str (lit "acquire") ∧
    Python.Value.get (acquireDocument lease pid spec) (lit "leaseId") = .str lease ∧
    Python.Value.get (acquireDocument lease pid spec) (lit "ownerPid") = .int pid ∧
    Python.Value.get (acquireDocument lease pid spec) (lit "sshHost") = .str spec.sshHost ∧
    Python.Value.get (acquireDocument lease pid spec) (lit "forwardHost") = .str spec.forwardHost ∧
    Python.Value.get (acquireDocument lease pid spec) (lit "forwardPort") = .int spec.forwardPort := by
  refine ⟨rfl, rfl, rfl, rfl, rfl, rfl⟩

theorem get_release (lease : Str) :
    Python.Value.get (releaseDocument lease) (lit "command") = .str (lit "release") ∧
    Python.Value.get (releaseDocument lease) (lit "leaseId") = .str lease := ⟨rfl, rfl⟩

/-- What the broker makes of it. -/
theorem acquireFields_document (lease : Str) (pid : ℤ) (spec : TunnelSpec) :
    ∃ r, acquireFields py host (acquireDocument lease pid spec) = .ok r ∧
      r.leaseId = lease ∧ r.ownerPid = pid := by
  obtain ⟨-, hlease, hpid, -, -, hport⟩ := get_acquire lease pid spec
  unfold acquireFields
  rw [hpid, hport, hlease, intOf_int, intOf_int, textOf_str]
  exact ⟨_, rfl, rfl, rfl⟩

/-! ### The port of the relay -/

/-- The port is the one there was, or the one that was chosen. -/
def PortFrom (host : Host) (s s' : Server) : Prop :=
  ∀ relay', s'.relay = some relay' →
    (∃ relay, s.relay = some relay ∧ relay.publicPort = relay'.publicPort) ∨
      host.publicPort = some relay'.publicPort

theorem portFrom_of_keeps {s' : Server} (h : KeepsPort s s')
    (hnew : s.relay = none → ∀ relay', s'.relay = some relay' →
      host.publicPort = some relay'.publicPort) : PortFrom host s s' := by
  intro relay' hrelay'
  rcases hrelay : s.relay with _ | relay
  · exact .inr (hnew hrelay relay' hrelay')
  · obtain ⟨relay'', hr, hport⟩ := h relay hrelay
    obtain rfl := Option.some.inj (hr.symm.trans hrelay')
    exact .inl ⟨relay, rfl, hport.symm⟩

/-- A relay that a start makes listens on the port that was chosen. -/
theorem startSsh_port (hssh : s.ssh = none) (hrelay : s.relay = none) {relay' : Relay}
    (h : (startSsh host s).1.relay = some relay') : host.publicPort = some relay'.publicPort := by
  unfold startSsh at h
  split at h
  · cases hrelay.symm.trans h
  · next spec hspec =>
    split at h
    · next relay _ hr => cases hrelay.symm.trans hr
    · cases hrelay.symm.trans h
    · next port _ hport =>
      have hnew : BackendOwned { s with relay := some ⟨port, none⟩ } := by
        intro relay back hr hb
        obtain rfl := Option.some.inj hr
        cases hb
      obtain ⟨htunnel, -⟩ := spawn_spec host (s := { s with relay := some ⟨port, none⟩ }) rfl hssh hnew spec
      obtain ⟨relay, hr, hsame⟩ := htunnel.port ⟨port, none⟩ rfl
      obtain rfl := Option.some.inj (hr.symm.trans h)
      rw [hport, hsame]

theorem setBackend_none (hrelay : s.relay = none) (port : Option ℕ) : (s.setBackend port).relay = none := by
  rw [Server.setBackend, hrelay]
  rfl

theorem ensureSsh_port (hrelay : s.relay = none) {relay' : Relay}
    (h : (ensureSsh host s).1.relay = some relay') : host.publicPort = some relay'.publicPort := by
  unfold ensureSsh at h
  split at h
  · next child hssh =>
    split_ifs at h
    · exact startSsh_port rfl (setBackend_none (s := { s with ssh := none }) hrelay none) h
    · cases hrelay.symm.trans h
  · next hssh => exact startSsh_port (s := s.setBackend none) hssh (setBackend_none hrelay none) h

theorem stopSsh_relay (hrelay : s.relay = none) : (stopSsh host s).1.relay = none := by
  have hstopped := setBackend_none (s := { s with ssh := none }) hrelay none
  unfold stopSsh
  split
  · exact hstopped
  · split_ifs
    · exact hstopped
    · exact hstopped

theorem acquireTunnel_port (hrelay : s.relay = none) (spec : TunnelSpec) {relay' : Relay}
    (h : (acquireTunnel host s spec).1.relay = some relay') :
    host.publicPort = some relay'.publicPort := by
  unfold acquireTunnel at h
  have hstopped := @stopSsh_relay host s hrelay
  split at h
  · split at h
    · next stopped e hstop =>
      rw [hstop] at hstopped
      cases hstopped.symm.trans h
    · next stopped _ hstop =>
      rw [hstop] at hstopped
      exact ensureSsh_port (s := { stopped with spec := some spec }) hstopped h
  · exact ensureSsh_port hrelay h

theorem noticeExit_relay (hrelay : s.relay = none) : (noticeExit host s).relay = none := by
  unfold noticeExit
  split
  · exact hrelay
  · split_ifs
    · exact setBackend_none (s := { s with ssh := none }) hrelay none
    · exact hrelay

theorem maintainTunnel_port (hrelay : s.relay = none) {relay' : Relay}
    (h : (maintainTunnel host s).1.relay = some relay') : host.publicPort = some relay'.publicPort := by
  have hnotice := @noticeExit_relay host s hrelay
  rcases maintainTunnel_cases host s with ⟨-, heq⟩ | ⟨hdue, ⟨-, heq⟩ | ⟨e, -, ⟨-, _, _, heq⟩ | ⟨-, heq⟩⟩⟩
  · rw [heq] at h
    cases hnotice.symm.trans h
  all_goals
    rw [heq] at h
    exact startSsh_port (ssh_of_restartDue hdue) hnotice h

/-! ### The leases -/

variable {under : Str → Option TunnelSpec}

theorem acquireChecks_alive {r : Request} (h : acquireChecks host s r = .ok ()) :
    pidAlive host r.ownerPid = .ok true := by
  unfold acquireChecks at h
  split at h
  · cases h
  · split at h
    · cases h
    · cases h
    · next halive => exact halive

theorem response_acquire {d : Dict} (h : Python.Value.get d (lit "command") = .str (lit "acquire")) :
    response py host s d = acquire py host s d := by
  unfold response
  rw [h]
  rfl

theorem response_other {d : Dict} (h : Python.Value.get d (lit "command") ≠ .str (lit "acquire"))
    {entry : Str × Lease} (hmem : entry ∈ (response py host s d).1.leases) : entry ∈ s.leases := by
  unfold response at hmem
  simp only [if_neg h] at hmem
  split_ifs at hmem
  · exact hmem
  · exact hmem
  · exact (List.mem_filter.mp hmem).1
  · exact hmem
  · exact hmem
  · exact hmem

/-- A lease that is released is not there any more. -/
theorem response_release {d : Dict} (h : Python.Value.get d (lit "command") = .str (lit "release"))
    {entry : Str × Lease} (hmem : entry ∈ (response py host s d).1.leases) :
    entry.1 ≠ textOf py (Python.Value.get d (lit "leaseId")) := by
  have hresponse : response py host s d = release py host s d := by
    unfold response
    rw [h]
    rfl
  rw [hresponse] at hmem
  exact of_decide_eq_true (List.mem_filter.mp hmem).2

/-- **What an `acquire` grants**: a lease for an owner that is alive, on the port of the relay. -/
theorem acquire_granted (hinv : Inv s under) {d document : Dict} {s' : Server}
    (h : acquire py host s d = (s', .ok document)) :
    ∃ r relay, acquireFields py host d = .ok r ∧ pidAlive host r.ownerPid = .ok true ∧
      s'.relay = some relay ∧ s'.leases = setLease s.leases r.leaseId ⟨r.ownerPid, host.time⟩ ∧
      document = [(lit "ok", .bool true), (lit "leaseId", .str r.leaseId),
        (lit "publicPort", .int relay.publicPort), (lit "generation", .int s'.generation)] := by
  unfold acquire at h
  rcases hfields : acquireFields py host d with e | r
  · rw [hfields] at h
    cases h
  · rw [hfields] at h
    dsimp only at h
    rcases hchecks : acquireChecks host s r with e | _
    · rw [hchecks] at h
      cases h
    · rw [hchecks] at h
      dsimp only at h
      rcases htunnel : acquireTunnel host s r.spec with ⟨tunnel, e | _⟩
      · rw [htunnel] at h
        cases h
      · rw [htunnel] at h
        obtain ⟨rfl, hdocument⟩ := Prod.mk.inj h
        obtain ⟨hleases, -, -, -, -, -, -, hok⟩ :=
          acquireTunnel_spec host hinv.backend hinv.started r.spec htunnel
        obtain ⟨relay, hrelay⟩ := Option.ne_none_iff_exists'.mp (hok rfl).2.2
        refine ⟨r, relay, rfl, acquireChecks_alive hchecks, hrelay, ?_, ?_⟩
        · exact congrArg (setLease · r.leaseId ⟨r.ownerPid, host.time⟩) hleases
        · rw [← Except.ok.inj hdocument, hrelay]
          rfl

theorem acquire_failed (hinv : Inv s under) {d : Dict} {s' : Server} {e : Raised}
    (h : acquire py host s d = (s', .error e)) : s'.leases = s.leases := by
  rcases acquire_cases py host s d with ⟨e', hcase⟩ | ⟨r, -, -, ⟨e', failed, htunnel, hcase⟩ |
    ⟨tunnel, document, -, hcase⟩⟩
  · rw [hcase] at h
    rw [← (Prod.mk.inj h).1]
  · rw [hcase] at h
    rw [← (Prod.mk.inj h).1]
    exact (acquireTunnel_spec host hinv.backend hinv.started r.spec htunnel).1
  · rw [hcase] at h
    cases (Prod.mk.inj h).2

/-- **Where a lease comes from**: it was there, or the request was granted. -/
theorem response_leases (hinv : Inv s under) {d : Dict} {entry : Str × Lease}
    (hmem : entry ∈ (response py host s d).1.leases) :
    entry ∈ s.leases ∨ Python.Value.get d (lit "command") = .str (lit "acquire") ∧
      ∃ r document, acquireFields py host d = .ok r ∧ entry = (r.leaseId, ⟨r.ownerPid, host.time⟩) ∧
        (response py host s d).2 = .ok document := by
  by_cases hcommand : Python.Value.get d (lit "command") = .str (lit "acquire")
  · rw [response_acquire hcommand] at hmem ⊢
    rcases h : acquire py host s d with ⟨s', e | document⟩
    · rw [h] at hmem
      exact .inl ((acquire_failed hinv h) ▸ hmem)
    · obtain ⟨r, relay, hfields, -, -, hleases, -⟩ := acquire_granted hinv h
      rw [h] at hmem
      dsimp only at hmem
      rw [hleases] at hmem
      exact (mem_setLease hmem).symm.imp_right fun heq => ⟨hcommand, r, document, hfields, heq, rfl⟩
  · exact .inl (response_other hcommand hmem)

theorem reapLeases_mem {entry : Str × Lease} (h : entry ∈ (reapLeases host s).1.leases) :
    entry ∈ s.leases := by
  unfold reapLeases at h
  split at h
  · exact h
  · dsimp only at h
    split_ifs at h
    · exact (List.mem_filter.mp h).1
    · exact (List.mem_filter.mp h).1

/-- The other steps grant nothing. -/
theorem after_leases (hinv : Inv s under) {e : BrokerRuns.Event} (he : ∀ d, e ≠ .request d)
    {entry : Str × Lease} (hmem : entry ∈ (after py host s e).leases) : entry ∈ s.leases := by
  cases e with
  | request d => exact absurd rfl (he d)
  | reap => exact reapLeases_mem hmem
  | maintain =>
    have hnotice := (noticeExit_spec host hinv.backend).1.leases
    rcases maintainTunnel_cases host s with ⟨-, heq⟩ | ⟨hdue, h⟩
    · rw [after, heq] at hmem
      exact hnotice ▸ hmem
    · have hstart := (startSsh_spec host (ssh_of_restartDue hdue)
        (noticeExit_spec host hinv.backend).2.1).1.leases
      rcases h with ⟨-, heq⟩ | ⟨e, -, ⟨-, _, _, heq⟩ | ⟨-, heq⟩⟩
      all_goals
        rw [after, heq] at hmem
        exact hnotice ▸ hstart ▸ hmem
  | idleTest => exact hmem
  | exit => exact hmem

/-- **The port of the relay** after any step. -/
theorem after_port (hinv : Inv s under) (hrunning : s.stopRequested = false) (e : BrokerRuns.Event) :
    PortFrom host s (after py host s e) := by
  have hkeeps := (@step_kept py host s under hinv hrunning e).stepped.port
  refine portFrom_of_keeps hkeeps fun hrelay relay' h => ?_
  have hnone : ∀ {t : Server}, t.relay = none → t.relay = some relay' →
      host.publicPort = some relay'.publicPort := fun h1 h2 => by cases h1.symm.trans h2
  cases e with
  | request d =>
    by_cases hcommand : Python.Value.get d (lit "command") = .str (lit "acquire")
    · rw [after, response_acquire hcommand] at h
      rcases acquire_cases py host s d with ⟨e', hcase⟩ | ⟨r, -, -, ⟨e', failed, htunnel, hcase⟩ |
        ⟨tunnel, document, htunnel, hcase⟩⟩
      · rw [hcase] at h
        exact hnone hrelay h
      · rw [hcase] at h
        exact acquireTunnel_port hrelay r.spec (by rw [htunnel]; exact h)
      · rw [hcase] at h
        exact acquireTunnel_port hrelay r.spec (by rw [htunnel]; exact h)
    · rw [after] at h
      unfold response at h
      simp only [if_neg hcommand] at h
      split_ifs at h
      all_goals exact hnone hrelay h
  | reap =>
    rw [after] at h
    unfold reapLeases at h
    split at h
    · exact hnone hrelay h
    · dsimp only at h
      split_ifs at h
      · exact hnone hrelay h
      · exact hnone hrelay h
  | maintain => exact maintainTunnel_port hrelay h
  | idleTest => exact hnone hrelay h
  | exit => exact hnone hrelay h

end Cloudx.Local.BrokerLeases
