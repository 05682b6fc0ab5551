import Cloudx.Scripts.KeyRotation

/-! # The original config of the gateway

A rotation that fails ends with the original config in its place or in its backup, unless the new
config was written, restoring the old one fails, and the backup is removed all the same. The other
steps of the rotation and of its recovery touch neither. -/

namespace Cloudx.Scripts.RotationRecovery

open Cloudx.Lib.Fault Cloudx.Lib.Fault.Act
open Cloudx.Python.Text Cloudx.Python.Value Cloudx.Python.Dump Cloudx.Python.Decode
open Cloudx.Scripts.GatewayKeys Cloudx.Scripts.KeyRotation

variable {fails : Step → Bool} {py : Py} {host : Host}

/-! ### One program at a time -/

section

variable {γ : Type} {part : Disk → γ}

theorem attempt_ok {t : Step} {d d' : Disk} {u : Unit} (h : attempt fails t d = (.ok u, d')) :
    d' = d := by
  unfold attempt Act.step at h
  split_ifs at h
  · cases h
  · exact (Prod.mk.inj h).2.symm

theorem ensure_ok {condition : Bool} {message : String} {d d' : Disk} {u : Unit}
    (h : ensure condition message d = (.ok u, d')) : d' = d ∧ condition = true := by
  unfold ensure at h
  split_ifs at h with hc
  · exact ⟨(Prod.mk.inj h).2.symm, hc⟩
  · cases h

theorem pureCheck_ok {α : Type} {x : Except PyError α} {d d' : Disk} {a : α}
    (h : pureCheck x d = (.ok a, d')) : d' = d ∧ x = .ok a := by
  rcases x with e | a'
  · cases h
  · cases h; exact ⟨rfl, rfl⟩

theorem frames_attempt (t : Step) : Frames part (attempt fails t) := frames_step (frames_pure ())

theorem frames_ensure (condition : Bool) (message : String) :
    Frames part (ensure condition message) := by
  unfold ensure
  split_ifs
  · exact frames_pure ()
  · exact frames_raise _

theorem frames_atomicWrite {at' : WriteStep → Step} {f : Disk → Disk}
    (hf : ∀ d, part (f d) = part d) : Frames part (atomicWrite fails at' f) := by
  unfold atomicWrite
  iterate 7 refine frames_bind (frames_attempt _) fun _ => ?_
  exact frames_modify hf

theorem frames_snapshot (at' : Access → Step) (target : Target) (label : String) (maximum : ℕ) :
    Frames part (safeSnapshot fails at' target label maximum) := by
  unfold safeSnapshot
  refine frames_bind (frames_step (frames_pure ())) fun _ => ?_
  refine frames_bind (frames_attempt _) fun _ => frames_bind frames_get fun d => ?_
  rcases d.entry target with _ | _ | ⟨data, mode, uid, gid⟩
  · exact frames_raise _
  · exact frames_raise _
  · dsimp only
    split_ifs
    · exact frames_raise _
    · iterate 3 refine frames_bind (frames_attempt _) fun _ => ?_
      exact frames_pure _

/-- A snapshot is of the file that is there. -/
theorem snapshot_ok {at' : Access → Step} {target : Target} {label : String} {maximum : ℕ}
    {d d' : Disk} {v : Snapshot} (h : safeSnapshot fails at' target label maximum d = (.ok v, d')) :
    d' = d ∧ v.existed = true ∧ d.entry target = .file v.data v.mode v.uid v.gid := by
  unfold safeSnapshot at h
  simp only [bind_eq_ok] at h
  obtain ⟨_, t, hstat, _, t', hlink, d'', t'', hget, hmatch⟩ := h
  obtain ⟨-, hstat⟩ := step_eq_ok.mp hstat
  cases hstat
  cases attempt_ok hlink
  cases hget
  rcases hentry : d.entry target with _ | _ | ⟨data, mode, uid, gid⟩
  · rw [hentry] at hmatch; cases hmatch
  · rw [hentry] at hmatch; cases hmatch
  · rw [hentry] at hmatch
    dsimp only at hmatch
    split_ifs at hmatch
    · cases hmatch
    · simp only [bind_eq_ok] at hmatch
      obtain ⟨_, t1, h1, _, t2, h2, _, t3, h3, hpure⟩ := hmatch
      cases attempt_ok h1
      cases attempt_ok h2
      cases attempt_ok h3
      cases hpure
      exact ⟨rfl, rfl, rfl⟩

/-- A file is written when no step fails, and left when one does. -/
theorem atomicWrite_cases (at' : WriteStep → Step) (f : Disk → Disk) (d : Disk) :
    ((∀ step, fails (at' step) = false) ∧ atomicWrite fails at' f d = (.ok (), f d)) ∨
    ((∃ step, fails (at' step) = true) ∧ atomicWrite fails at' f d = (.error .os, d)) := by
  have hpass : ∀ {t : Step} {x : Program Unit}, fails t = false →
      (attempt fails t >>= fun _ => x) d = x d := by
    intro t x ht
    unfold attempt
    rw [bind_run, step_ok ht]
    rfl
  have hstop : ∀ {t : Step} {x : Program Unit}, fails t = true →
      (attempt fails t >>= fun _ => x) d = (.error .os, d) := by
    intro t x ht
    unfold attempt
    rw [bind_run, step_fail ht]
  unfold atomicWrite
  rcases h1 : fails (at' .mkdir) with _ | _
  swap; · exact .inr ⟨⟨_, h1⟩, hstop h1⟩
  rcases h2 : fails (at' .mkstemp) with _ | _
  swap; · exact .inr ⟨⟨_, h2⟩, by rw [hpass h1, hstop h2]⟩
  rcases h3 : fails (at' .fchmod) with _ | _
  swap; · exact .inr ⟨⟨_, h3⟩, by rw [hpass h1, hpass h2, hstop h3]⟩
  rcases h4 : fails (at' .fchown) with _ | _
  swap; · exact .inr ⟨⟨_, h4⟩, by rw [hpass h1, hpass h2, hpass h3, hstop h4]⟩
  rcases h5 : fails (at' .write) with _ | _
  swap; · exact .inr ⟨⟨_, h5⟩, by rw [hpass h1, hpass h2, hpass h3, hpass h4, hstop h5]⟩
  rcases h6 : fails (at' .fsync) with _ | _
  swap
  · exact .inr ⟨⟨_, h6⟩, by rw [hpass h1, hpass h2, hpass h3, hpass h4, hpass h5, hstop h6]⟩
  rcases h7 : fails (at' .replace) with _ | _
  swap
  · refine .inr ⟨⟨_, h7⟩, ?_⟩
    rw [hpass h1, hpass h2, hpass h3, hpass h4, hpass h5, hpass h6, hstop h7]
  refine .inl ⟨fun step => ?_, ?_⟩
  · cases step <;> assumption
  · rw [hpass h1, hpass h2, hpass h3, hpass h4, hpass h5, hpass h6, hpass h7]
    rfl

end

/-! ### The config and its backup -/

/-- The config and the backup. -/
def kept (d : Disk) : Entry × Option Bytes := (d.config, d.backup)

theorem frames_restore {target : Target} (htarget : target ≠ .config) (value : Snapshot) :
    Frames kept (KeyRotation.restore fails target value) := by
  have hput : ∀ (entry : Entry) (d : Disk), kept (d.put entry target) = kept d := by
    intro entry d
    cases target with
    | config => exact absurd rfl htarget
    | credential => rfl
    | environment => rfl
  unfold KeyRotation.restore
  split_ifs
  · exact frames_atomicWrite fun d => hput _ d
  · exact frames_bind (frames_attempt _) fun _ => frames_modify fun d => hput _ d

theorem frames_verify (target : Target) (label : String) (maximum : ℕ) (value : Snapshot) :
    Frames kept (verifyTarget fails target label maximum value) :=
  frames_bind (frames_snapshot _ _ _ _) fun _ => frames_ensure _ _

/-- After the config is written, the rotation touches neither. -/
theorem frames_rotateRest (p : Prepared) : Frames kept (rotateRest fails host p) := by
  unfold rotateRest
  refine frames_bind (frames_atomicWrite fun _ => rfl) fun _ => ?_
  refine frames_bind (frames_atomicWrite fun _ => rfl) fun _ => ?_
  iterate 4 refine frames_bind (frames_attempt _) fun _ => ?_
  refine frames_bind (frames_ensure _ _) fun _ => frames_bind ?_ fun _ => ?_
  · unfold observeAll
    iterate 3 refine frames_bind (frames_snapshot _ _ _ _) fun _ => ?_
    exact frames_bind (frames_ensure _ _) fun _ => frames_bind (frames_ensure _ _) fun _ =>
      frames_ensure _ _
  · exact frames_atomicWrite fun _ => rfl

/-- After the config is restored, the recovery touches neither. -/
theorem frames_recoverRest (p : Prepared) : Frames kept (recoverRest fails p) := by
  unfold recoverRest
  refine frames_bind (frames_restore (by decide) _) fun _ => ?_
  refine frames_bind (frames_restore (by decide) _) fun _ => ?_
  iterate 4 refine frames_bind (frames_attempt _) fun _ => ?_
  exact frames_bind (frames_verify _ _ _ _) fun _ => frames_bind (frames_verify _ _ _ _) fun _ =>
    frames_verify _ _ _ _

/-! ### What the preparation establishes -/

theorem examine_ok {d d' : Disk} {p : Prepared} (h : examine fails py host d = (.ok p, d')) :
    d' = d ∧ p.configBefore.existed = true ∧ d.config = .file p.configBefore.data
      p.configBefore.mode p.configBefore.uid p.configBefore.gid ∧
      p.configAfter ≠ p.configBefore.data := by
  unfold examine at h
  simp only [bind_eq_ok] at h
  obtain ⟨_, d0, haccounts, credential, d1, hcredential, environment, d2, henvironment, config, d3,
    hconfig, _, d4, hmode, text, d5, htext, existing, d6, hexisting, _, d7, hunique, _, d8, hpid,
    gateway, d9, hgateway, portText, d10, hportText, port, d11, hport, ⟨after, count⟩, d12, hafter,
    hrest⟩ := h
  obtain ⟨keysAfter, d13, hkeys, _, d14, happended, hpure⟩ := hrest
  obtain ⟨-, haccounts⟩ := step_eq_ok.mp haccounts
  cases haccounts
  obtain ⟨rfl, -, -⟩ := snapshot_ok hcredential
  obtain ⟨rfl, -, -⟩ := snapshot_ok henvironment
  obtain ⟨rfl, hexisted, hfile⟩ := snapshot_ok hconfig
  obtain ⟨rfl, -⟩ := ensure_ok hmode
  obtain ⟨rfl, -⟩ := pureCheck_ok htext
  obtain ⟨rfl, hbefore⟩ := pureCheck_ok hexisting
  obtain ⟨rfl, -⟩ := ensure_ok hunique
  cases attempt_ok hpid
  obtain ⟨rfl, -⟩ := pureCheck_ok hgateway
  obtain ⟨rfl, -⟩ := pureCheck_ok hportText
  obtain ⟨rfl, -⟩ := pureCheck_ok hport
  obtain ⟨rfl, -⟩ := pureCheck_ok hafter
  obtain ⟨rfl, hkeysAfter⟩ := pureCheck_ok hkeys
  obtain ⟨rfl, hlonger⟩ := ensure_ok happended
  cases hpure
  refine ⟨rfl, hexisted, hfile, fun hsame => ?_⟩
  dsimp only at hsame
  rw [hsame, hbefore] at hkeysAfter
  have hlist := of_decide_eq_true hlonger
  rw [← Except.ok.inj hkeysAfter] at hlist
  exact absurd (congrArg List.length hlist) (by simp)

theorem writeBackup_ok {d d' : Disk} {p : Prepared} {u : Unit}
    (h : writeBackup fails p d = (.ok u, d')) :
    d'.config = d.config ∧ d'.backup = some p.configBefore.data := by
  unfold writeBackup at h
  simp only [bind_eq_ok] at h
  obtain ⟨_, t1, h1, _, t2, h2, _, t3, h3, _, t4, h4, _, t5, h5, h6⟩ := h
  cases attempt_ok h1
  cases attempt_ok h2
  cases h3
  obtain ⟨rfl, -⟩ := ensure_ok h4
  rcases @atomicWrite_cases fails Step.writeBackup
    (fun d => { d with backup := some p.configBefore.data }) t4 with ⟨-, hrun⟩ | ⟨-, hrun⟩
  swap; · cases hrun.symm.trans h5
  cases hrun.symm.trans h5
  rcases @atomicWrite_cases fails Step.prepareManifest
    (fun d => { d with transaction := some (some p.manifest) })
    { t4 with backup := some p.configBefore.data } with ⟨-, hrun'⟩ | ⟨-, hrun'⟩
  swap; · cases hrun'.symm.trans h6
  cases hrun'.symm.trans h6
  exact ⟨rfl, rfl⟩

/-- A prepared rotation has a backup of the config, which it has not changed. -/
theorem prepare_ok {d d' : Disk} {p : Prepared} (h : prepare fails py host d = (.ok p, d')) :
    d.config = .file p.configBefore.data p.configBefore.mode p.configBefore.uid
      p.configBefore.gid ∧ p.configBefore.existed = true ∧
      p.configAfter ≠ p.configBefore.data ∧ d'.config = d.config ∧
      d'.backup = some p.configBefore.data := by
  unfold prepare at h
  simp only [bind_eq_ok] at h
  obtain ⟨p', d1, hexamine, _, d3, hdirectory, _, d4, hbackup, hpure⟩ := h
  obtain ⟨rfl, hexisted, hfile, hdiffers⟩ := examine_ok hexamine
  cases hpure
  have hdir : d3.config = d1.config := by
    unfold prepareDirectory at hdirectory
    simp only [bind_eq_ok] at hdirectory
    obtain ⟨_, t, h1, _, t', h2, _, t'', h3, h4⟩ := hdirectory
    cases attempt_ok h1
    cases attempt_ok h2
    cases h3
    cases attempt_ok h4
    rfl
  have hwritten : writeBackup fails p d3 = (.ok (), d') := by
    rcases hw : writeBackup fails p d3 with ⟨e | _, t⟩
    · rw [except_error hw] at hbackup
      simp only [bind_eq_ok] at hbackup
      obtain ⟨_, _, -, _, _, -, hraise⟩ := hbackup
      cases hraise
    · rw [except_ok hw] at hbackup
      exact hbackup
  obtain ⟨hkept, hsaved⟩ := writeBackup_ok hwritten
  exact ⟨hfile, hexisted, hdiffers, hkept.trans hdir, hsaved⟩

/-! ### Where the config ends -/

/-- The config and the backup after a rotation. -/
theorem rotate_kept (p : Prepared) (d : Disk) :
    ((∀ step, fails (.write .config step) = false) ∧ kept (rotate fails host p d).2 =
      (.file p.configAfter p.configBefore.mode p.configBefore.uid p.configBefore.gid, d.backup)) ∨
    ((∃ step, fails (.write .config step) = true) ∧ kept (rotate fails host p d).2 = kept d) := by
  unfold rotate writeConfig
  rcases @atomicWrite_cases fails (Step.write .config) (fun d => d.put (.file p.configAfter
    p.configBefore.mode p.configBefore.uid p.configBefore.gid) .config) d with ⟨hw, hrun⟩ | ⟨hw, hrun⟩
  · refine .inl ⟨hw, ?_⟩
    rw [bind_ok hrun, frames_rotateRest]
    rfl
  · refine .inr ⟨hw, ?_⟩
    rw [bind_error hrun]

/-- The config and the backup after a recovery. -/
theorem recover_kept (p : Prepared) (hexisted : p.configBefore.existed = true) (d : Disk) :
    ((∀ step, fails (.restore .config step) = false) ∧
      kept (recover fails p d).2 = (.file p.configBefore.data p.configBefore.mode
        p.configBefore.uid p.configBefore.gid, d.backup)) ∨
    ((∃ step, fails (.restore .config step) = true) ∧ kept (recover fails p d).2 = kept d) := by
  unfold recover KeyRotation.restore
  rw [if_pos hexisted]
  rcases @atomicWrite_cases fails (Step.restore .config) (fun d => d.put
    (.file p.configBefore.data p.configBefore.mode p.configBefore.uid p.configBefore.gid) .config) d
    with ⟨hw, hrun⟩ | ⟨hw, hrun⟩
  · refine .inl ⟨hw, ?_⟩
    rw [bind_ok hrun, frames_recoverRest]
    rfl
  · refine .inr ⟨hw, ?_⟩
    rw [bind_error hrun]

theorem captured_run (x : Program Unit) (d : Disk) :
    ∃ b, captured x d = (.ok b, (x d).2) := by
  unfold captured
  rcases hx : x d with ⟨e | _, d'⟩
  · refine ⟨false, ?_⟩
    have hrun : (do x; return true : Program Bool) d = (.error e, d') := by
      rw [bind_run, hx]
    rw [except_error hrun]
    rfl
  · refine ⟨true, ?_⟩
    have hrun : (do x; return true : Program Bool) d = (.ok true, d') := by
      rw [bind_run, hx]
      rfl
    exact except_ok hrun

/-- The backup is removed unless that fails. -/
theorem cleanup_kept (d : Disk) : kept (cleanup fails d).2 =
    (d.config, if fails .unlinkBackup = true then d.backup else none) := by
  unfold cleanup attempt
  rcases hu : fails .unlinkBackup with _ | _
  · rw [bind_run, step_ok hu]
    rfl
  · rw [bind_run, step_fail hu]
    rfl

/-- The config and the backup after the handler. -/
theorem rollBack_kept (p : Prepared) (d : Disk) : kept (rollBack fails p d).2 =
    ((recover fails p d).2.config,
      if fails .unlinkBackup = true then (recover fails p d).2.backup else none) := by
  obtain ⟨recovered, hrecover⟩ := captured_run (recover fails p) d
  obtain ⟨cleaned, hcleanup⟩ := captured_run (cleanup fails) (recover fails p d).2
  unfold rollBack
  rw [bind_ok hrecover, bind_ok hcleanup, ← cleanup_kept]
  split_ifs <;> rfl

/-! ### When the original config is not lost -/

/-- The config holds the bytes it had at first, or the backup does. -/
def OriginalKept (first last : Disk) : Prop :=
  ∃ data mode uid gid, first.config = .file data mode uid gid ∧
    ((∃ mode' uid' gid', last.config = .file data mode' uid' gid') ∨ last.backup = some data)

/-- **When a failed rotation keeps the original config**: unless the new one was written, restoring the
old one fails and the backup is removed. -/
theorem originalKept_iff {d d' d'' : Disk} {p : Prepared} {e : PyError}
    (hprepared : prepare fails py host d = (.ok p, d'))
    (hfailed : rotate fails host p d' = (.error e, d'')) :
    OriginalKept d (apply fails py host d).2 ↔
      (∃ step, fails (.write .config step) = true) ∨
      (∀ step, fails (.restore .config step) = false) ∨ fails .unlinkBackup = true := by
  obtain ⟨hfile, hexisted, hdiffers, hconfig, hbackup⟩ := prepare_ok hprepared
  have hrun : (apply fails py host d).2 = (rollBack fails p d'').2 := by
    unfold apply
    rw [bind_ok hprepared, except_error hfailed]
  have hkept := @rollBack_kept fails p d''
  rw [← hrun] at hkept
  have hlast : (apply fails py host d).2.config = (recover fails p d'').2.config ∧
      (apply fails py host d).2.backup =
        if fails .unlinkBackup = true then (recover fails p d'').2.backup else none :=
    ⟨(Prod.mk.inj hkept).1, (Prod.mk.inj hkept).2⟩
  have hrotated := @rotate_kept fails host p d'
  rw [hfailed] at hrotated
  have hbackup'' : d''.backup = some p.configBefore.data := by
    rcases hrotated with ⟨-, h⟩ | ⟨-, h⟩
    · exact (Prod.mk.inj h).2.trans hbackup
    · exact (Prod.mk.inj h).2.trans hbackup
  have hrecovered := @recover_kept fails p hexisted d''
  have hbackupR : (recover fails p d'').2.backup = some p.configBefore.data := by
    rcases hrecovered with ⟨-, h⟩ | ⟨-, h⟩
    · exact (Prod.mk.inj h).2.trans hbackup''
    · exact (Prod.mk.inj h).2.trans hbackup''
  rw [hbackupR] at hlast
  have hholds : OriginalKept d (apply fails py host d).2 ↔
      (∃ mode uid gid, (apply fails py host d).2.config = .file p.configBefore.data mode uid gid) ∨
        (apply fails py host d).2.backup = some p.configBefore.data := by
    unfold OriginalKept
    rw [hfile]
    constructor
    · rintro ⟨_, _, _, _, he, h⟩; cases he; exact h
    · intro h; exact ⟨_, _, _, _, rfl, h⟩
  rw [hholds, hlast.1, hlast.2]
  by_cases hunlink : fails .unlinkBackup = true
  · rw [if_pos hunlink]
    exact iff_of_true (.inr rfl) (.inr (.inr hunlink))
  rw [if_neg hunlink, or_iff_left (by simp), or_iff_left hunlink]
  rcases hrecovered with ⟨hrestored, h⟩ | ⟨⟨step, hstep⟩, h⟩
  · refine iff_of_true ?_ (.inr hrestored)
    exact ⟨p.configBefore.mode, p.configBefore.uid, p.configBefore.gid, (Prod.mk.inj h).1⟩
  · have hstuck : ¬ ∀ step, fails (.restore .config step) = false := fun hall =>
      absurd ((hall step).symm.trans hstep) (by simp)
    rw [or_iff_left hstuck, (Prod.mk.inj h).1]
    rcases hrotated with ⟨hwritten, h'⟩ | ⟨hnot, h'⟩
    · refine iff_of_false ?_ ?_
      · rintro ⟨_, _, _, he⟩
        have hnew := (Prod.mk.inj h').1.symm.trans he
        exact hdiffers (Entry.file.inj hnew).1
      · rintro ⟨step, hstep⟩
        exact absurd ((hwritten step).symm.trans hstep) (by simp)
    · refine iff_of_true ⟨p.configBefore.mode, p.configBefore.uid, p.configBefore.gid, ?_⟩ hnot
      exact (Prod.mk.inj h').1.trans (hconfig.trans hfile)

/-! ### A rotation that loses it -/

/-- A host with the new key `cloudx-new`. -/
def oneHost : Host where
  artifact := lit "/opt/cloudx/releases/1.2.3/cloudx-cloud.pyz"
  releaseVersion := lit "1.2.3"
  buildCommit := lit "abc"
  gatewayVersion := lit "7"
  cloudxUid := 990
  cloudxGid := 990
  key := lit "cloudx-new"
  transactionId := lit "t"
  oldPid := 41
  newPid := 42
  watches := 2
  int s := if s = lit "8317" then some 8317 else none

/-- The interpreter, which reads the new key back from its quoted text. -/
def onePy : Py := tablePy [] [(utf8 (quote true oneHost.key), .str oneHost.key)] []

/-- A gateway with one key. -/
def oneDisk : Disk where
  config := .file (utf8 (lit "host: 127.0.0.1\nport: 8317\napi-keys:\n  - old\n")) 0o600 0 0
  credential := .file (utf8 (lit "old\n")) 0o600 990 990
  environment := .file (utf8 (lit "CLOUDX_GATEWAY_VERSION=6\n")) 0o640 0 990
  backup := none
  transaction := none

/-- The restart and the replacement of the config by the old one fail. -/
def twoFail (t : Step) : Bool := t = .restart || t = .restore .config .replace

/-- The original config is gone, though the rotation was prepared. -/
theorem original_lost : (prepare twoFail onePy oneHost oneDisk).1.isOk = true ∧
    ¬ OriginalKept oneDisk (apply twoFail onePy oneHost oneDisk).2 := by
  have hprepared : (prepare twoFail onePy oneHost oneDisk).1.isOk = true := by decide +kernel
  have hbackup : (apply twoFail onePy oneHost oneDisk).2.backup = none := by decide +kernel
  have hconfig : (apply twoFail onePy oneHost oneDisk).2.config =
      .file (utf8 (lit "host: 127.0.0.1\nport: 8317\napi-keys:\n  - old\n  - \"cloudx-new\"\n"))
        0o600 0 0 := by decide +kernel
  refine ⟨hprepared, ?_⟩
  rintro ⟨data, mode, uid, gid, hfirst, ⟨_, _, _, hlast⟩ | hlast⟩
  · have hnew := (Entry.file.inj (hconfig.symm.trans hlast)).1
    have hold := (Entry.file.inj hfirst).1
    exact absurd (hnew.trans hold.symm) (by decide +kernel)
  · exact absurd (hbackup.symm.trans hlast) (by simp)

/-- When only the restart fails, the config is restored. -/
theorem original_restored :
    OriginalKept oneDisk (apply (fun t => t = .restart) onePy oneHost oneDisk).2 := by
  have hsome : (prepare (fun t => t = .restart) onePy oneHost oneDisk).1.isOk = true := by
    decide +kernel
  have herror : (apply (fun t => t = .restart) onePy oneHost oneDisk).1.isOk = false := by
    decide +kernel
  rcases hprepared : prepare (fun t => t = .restart) onePy oneHost oneDisk with ⟨_ | p, d'⟩
  · rw [hprepared] at hsome
    cases hsome
  rcases hfailed : rotate (fun t => t = .restart) oneHost p d' with ⟨e | _, d''⟩
  · refine (originalKept_iff hprepared hfailed).mpr (.inr (.inl fun step => ?_))
    cases step <;> rfl
  · unfold apply at herror
    rw [bind_ok hprepared, except_ok hfailed] at herror
    cases herror

end Cloudx.Scripts.RotationRecovery
