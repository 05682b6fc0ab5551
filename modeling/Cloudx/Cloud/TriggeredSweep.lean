import Cloudx.Cloud.Sweep
import Cloudx.Cloud.Receipts
import Cloudx.Shared.Trigger

/-! # A triggered sweep of the cloud accounts

`triggered_sweep_run`: the failures that need no probes are archived, the trigger is loaded, and if there
is one and no other sweep is going on, all accounts are probed. The trigger is consumed when the
transport was reachable or there were no accounts.

A run shares its disk, the trigger and the sweep lock with everybody else. The functions that archive
work on the disk alone: a run is stated for any programs over the disk in their place. -/

namespace Cloudx.Cloud.TriggeredSweep

open Cloudx.Lib.Fault Cloudx.Lib.Memo Cloudx.Lib.Threads Cloudx.Lib.Threads.Thread
open Cloudx.Python.Text Cloudx.Python.Value Cloudx.Python.Dump
open Cloudx.Shared.Http Cloudx.Shared.Receipt Cloudx.Shared.Trigger
open Cloudx.Cloud.Disk Cloudx.Cloud.Quarantine Cloudx.Cloud.Auth Cloudx.Cloud.Sweep Cloudx.Cloud.Quota

/-- What a file was found to hold, with its path. -/
abbrev Found := Path × AuthRead

/-- The programs of the cloud maintenance. -/
abbrev Program := Thread (Site World) (Event Path Found Summary) PyError

/-- The functions that archive, as programs over the disk: `archive_static_failures`, the two calls of
`archive_runtime_failures`, and `archive_permanent_probe_failures`. -/
structure Archivers where
  static : DiskProgram World (List Str)
  runtime : DiskProgram World (List Str × ℕ × ℕ)
  later : DiskProgram World (List Str × ℕ × ℕ)
  probed : List Candidate → DiskProgram World (List Str × ℕ)

/-- The arguments of a run; `walk` is what the walk through the directory yields meanwhile. -/
structure RunOptions extends SweepOptions where
  now : ℚ
  walk : World → Except PyError (List Path)
  consumeFails : ConsumeStep → Bool
  saveFails : Bool

/-- `sweep_trigger_status` -/
inductive Outcome where
  | unloaded (status : TriggerStatus)
  | busy
  | consumed
  | retained
deriving DecidableEq

/-- The summary of a run; there are no counts of a pool that was not probed. -/
structure RunSummary where
  pool : Option Summary
  archivedFiles : List Str
  runtimeArchived : ℕ
  probeArchived : ℕ
  staleProbeCandidates : ℕ
  rejectedReceipts : ℕ
  staleReceipts : ℕ
  outcome : Outcome
deriving DecidableEq

/-- `sorted(set(names))` -/
def sortedSet (names : List Str) : List Str := names.dedup.insertionSort (· ≤ ·)

section

variable (cfg : Config) (py : Py) (opts : RunOptions)

/-- `_iter_json_files`, as one access. -/
def listFiles : Program (List Path) :=
  look (fun s => match opts.walk s.disk with
    | .ok paths => some (.listed paths)
    | .error _ => none) fun s => opts.walk s.disk

/-- `read_auth_json` -/
def readFile (path : Path) : Program Found :=
  look (fun s => match readAuthJson s.disk path with
    | .ok content => some (.read (path, content))
    | .error _ => none) fun s => (readAuthJson s.disk path).map (path, ·)

/-- `_sha256`, or the empty text for its `OSError`. -/
def hashFile (path : Path) : Program Str := look (fun _ => none) fun s => .ok (digestOf py s.disk path)

/-- The end of the probes. -/
def finishProbes (summary : Summary) : Program Unit :=
  look (fun _ => some (.swept summary)) fun _ => .ok ()

/-- `probe_accounts` -/
def probeAccounts : Program (Summary × List Candidate) := do
  let paths ← listFiles opts
  let reads ← each readFile paths
  let contexts := authContexts py cfg.authDir reads
  let digests ← each (hashFile py)
    (if reaches opts.toSweepOptions contexts then contexts.map Context.path else [])
  let (summary, candidates) ← lift (assess py opts.toSweepOptions contexts digests)
  finishProbes summary
  return (summary, candidates)

/-- `summary["probe_gate"] in {"reachable", "no_accounts"}` -/
def mayConsume (gate : ProbeGate) : Bool := gate = .transport .reachable || gate = .noAccounts

/-- Consumes the trigger if the gate allows it. -/
def consumeAllowed (gate : ProbeGate) (trigger : Trigger) : Program Bool :=
  if mayConsume gate then consume py opts.consumeFails trigger else pure false

/-- `save_state` -/
def saveState : Program Unit := if opts.saveFails then Thread.raise .os else pure ()

/-- What a run does under the sweep lock. -/
def sweepLocked (a : Archivers) (trigger : Trigger) (staticArchived runtimeArchived : List Str)
    (rejected stale : ℕ) : Program RunSummary := do
  let (summary, candidates) ← probeAccounts cfg py opts
  let (laterArchived, laterRejected, laterStale) ← onDisk a.later
  let (probeArchived, staleCandidates) ← onDisk (a.probed candidates)
  let runtimeArchived := sortedSet (runtimeArchived ++ laterArchived)
  let consumed ← consumeAllowed py opts summary.probeGate trigger
  saveState opts
  return {
    pool := some summary
    archivedFiles := sortedSet (staticArchived ++ runtimeArchived ++ probeArchived)
    runtimeArchived := runtimeArchived.length
    probeArchived := probeArchived.length
    staleProbeCandidates := staleCandidates
    rejectedReceipts := max rejected laterRejected
    staleReceipts := max stale laterStale
    outcome := if consumed then .consumed else .retained }

/-- The summary of a run that does not probe. -/
def passiveSummary (staticArchived runtimeArchived : List Str) (rejected stale : ℕ)
    (outcome : Outcome) : RunSummary where
  pool := none
  archivedFiles := sortedSet (staticArchived ++ runtimeArchived)
  runtimeArchived := runtimeArchived.dedup.length
  probeArchived := 0
  staleProbeCandidates := 0
  rejectedReceipts := rejected
  staleReceipts := stale
  outcome := outcome

/-- `triggered_sweep_run` -/
def triggeredSweepRun (a : Archivers) : Program RunSummary := do
  let staticArchived ← onDisk a.static
  let (runtimeArchived, rejected, stale) ← onDisk a.runtime
  match ← load py opts.now with
  | (none, status) => do
    saveState opts
    return passiveSummary staticArchived runtimeArchived rejected stale (.unloaded status)
  | (some trigger, _) => do
    let acquired ← trySweepLock
    if !acquired then return passiveSummary staticArchived runtimeArchived rejected stale .busy
    ensuring releaseSweepLock
      (sweepLocked cfg py opts a trigger staticArchived runtimeArchived rejected stale)

end

/-! ### A complete sweep -/

/-- Every context of the files read has been probed, with a reachable transport, or there was none: the
summary is that of the probes. -/
structure Complete (cfg : Config) (py : Py) (paths : List Path) (reads : List Found)
    (summary : Summary) : Prop where
  all : reads.map Prod.fst = paths
  probed : (summary.probeGate = .noAccounts ∧ authContexts py cfg.authDir reads = []) ∨
    (summary.probeGate = .transport .reachable ∧ ∃ (opener : Opener) (clock : Str → Clock)
      (probes : List (Option ProbeResult)), transport opener = .reachable ∧
        List.Forall₂ (SharedResult (credentialKey py)
            (fun key auth => probeAccountQuotaHttp py opener (clock key) auth)
            (credentials py (authContexts py cfg.authDir reads)))
          (credentials py (authContexts py cfg.authDir reads)) probes)

variable {cfg : Config} {py : Py} {opts : RunOptions} {past : List (Event Path Found Summary)}

/-- The rule of the cloud runs, which report no archived files. -/
abbrev CloudRule (cfg : Config) (py : Py) : Rule (Site World) (Event Path Found Summary) :=
  TriggerRule (Complete cfg py) fun _ _ _ => False

/-- A sweep that may consume the trigger is complete. -/
theorem assess_complete {opts : SweepOptions} {paths : List Path} {reads : List Found}
    {digests : List Str} {summary : Summary} {candidates : List Candidate}
    (hall : reads.map Prod.fst = paths)
    (h : assess py opts (authContexts py cfg.authDir reads) digests = .ok (summary, candidates))
    (hgate : mayConsume summary.probeGate = true) : Complete cfg py paths reads summary := by
  refine ⟨hall, ?_⟩
  unfold assess at h
  dsimp only at h
  split_ifs at h with hempty
  · cases h
    exact .inl ⟨rfl, hempty⟩
  split at h
  · next htransport =>
    obtain ⟨probes, hprobes, h⟩ := except_bind_ok h
    cases h
    exact .inr ⟨rfl, opts.opener, opts.clock, probes, htransport, forall_shared hprobes⟩
  · next hother =>
    cases h
    have hreachable : transport opts.opener = .reachable := by
      have hgate' : ProbeGate.transport (transport opts.opener) = .transport .reachable ∨
          ProbeGate.transport (transport opts.opener) = .noAccounts := by
        simpa [mayConsume, summarizeProbes] using hgate
      rcases hgate' with hsame | hnone
      · exact ProbeGate.transport.inj hsame
      · cases hnone
    exact absurd hreachable hother

/-- **The probes** list and read the files, and then report the sweep. -/
theorem meets_probeAccounts : Meets (CloudRule cfg py) (fun past' r => match r with
      | .ok (summary, _) => ∃ paths reads,
          past' = past ++ (.listed paths :: reads.map .read ++ [.swept summary]) ∧
            (mayConsume summary.probeGate = true → Complete cfg py paths reads summary)
      | .error _ => True) past (probeAccounts cfg py opts) := by
  unfold probeAccounts
  refine Meets.bind (meets_look (fun s => ?_) fun s => ?_)
  · rcases opts.walk s.disk with e | paths
    · simp
    · simp
  rcases opts.walk s.disk with e | paths
  · trivial
  have hreads := @meets_each _ _ _ _ _ (CloudRule cfg py)
    (fun past' reads => past' = past ++ (.listed paths :: reads.map .read))
    (fun path (found : Found) => found.1 = path) (fun _ _ => True) readFile ?_ paths
    (past ++ [.listed paths]) [] rfl
  · refine Meets.bind (hreads.mono fun past' r hr => ?_)
    rcases r with e | reads
    · trivial
    obtain ⟨rfl, hpaths⟩ := hr
    have hhashes := fun past' paths => @meets_each _ _ _ _ _ (CloudRule cfg py)
      (fun past'' _ => past'' = past') (fun _ _ => True) (fun _ _ => True) (hashFile py) ?_ paths
      past' [] rfl
    · refine Meets.bind ((hhashes _ _).mono fun past'' r hr => ?_)
      rcases r with e | digests
      · trivial
      obtain ⟨rfl, -⟩ := hr
      refine Meets.bind (meets_lift ?_)
      rcases hassess : assess py opts.toSweepOptions (authContexts py cfg.authDir reads) digests with
        e | ⟨summary, candidates⟩
      · trivial
      refine Meets.bind (meets_look (fun s => by simp) fun s => ?_)
      refine ⟨paths, reads, by simp, fun hgate => assess_complete ?_ hassess hgate⟩
      rw [← List.forall₂_eq_eq_eq, List.forall₂_map_left_iff]
      exact hpaths.flip.imp fun _ _ h => h
    · intro path past'' bs hI
      exact meets_look (fun s => by simp) fun s => ⟨by simpa using hI, trivial⟩
  · intro path past' reads hI
    refine meets_look (fun s => ?_) fun s => ?_
    · rcases readAuthJson s.disk path with e | content
      · simp
      · simp
    · rcases readAuthJson s.disk path with e | content
      · trivial
      · subst hI
        exact ⟨by simp, rfl⟩

/-- The part under the sweep lock, after a trigger was loaded. -/
theorem meets_sweepLocked (hinj : Function.Injective py.sha256) {a : Archivers} {trigger : Trigger}
    {raw : Bytes} (hdigest : trigger.digest = py.sha256 raw) (staticArchived runtimeArchived : List Str)
    (rejected stale : ℕ) : Meets (CloudRule cfg py) (fun _ _ => True) [.loaded raw]
      (sweepLocked cfg py opts a trigger staticArchived runtimeArchived rejected stale) := by
  unfold sweepLocked
  refine Meets.bind (meets_probeAccounts.mono fun past r hr => ?_)
  rcases r with e | ⟨summary, candidates⟩
  · trivial
  obtain ⟨paths, reads, rfl, hcomplete⟩ := hr
  refine Meets.bind ((meets_onDisk a.later).mono fun past' r hr => ?_)
  subst hr
  rcases r with e | ⟨laterArchived, laterRejected, laterStale⟩
  · trivial
  refine Meets.bind ((meets_onDisk (a.probed candidates)).mono fun past' r hr => ?_)
  subst hr
  rcases r with e | ⟨probeArchived, staleCandidates⟩
  · trivial
  have hsave : ∀ (past : List (Event Path Found Summary)) (result : RunSummary),
      Meets (CloudRule cfg py) (fun _ _ => True) past (do saveState opts; return result) := by
    intro past result
    unfold saveState
    split_ifs <;> trivial
  dsimp only
  refine Meets.bind ?_
  unfold consumeAllowed
  by_cases hgate : mayConsume summary.probeGate = true
  · rw [if_pos hgate]
    have hconsume := @meets_consume World Path Found Summary (Complete cfg py) (fun _ _ _ => False) py
      hinj opts.consumeFails trigger raw paths reads summary [] hdigest (hcomplete hgate)
    rw [List.append_nil] at hconsume
    refine hconsume.mono fun past' r _ => ?_
    rcases r with e | consumed
    · trivial
    · exact hsave _ _
  · rw [if_neg hgate]
    exact hsave _ _

/-- **A run follows the rule.** -/
theorem meets_triggeredSweepRun (hinj : Function.Injective py.sha256) (a : Archivers) :
    Meets (CloudRule cfg py) (fun _ _ => True) [] (triggeredSweepRun cfg py opts a) := by
  unfold triggeredSweepRun
  refine Meets.bind ((meets_onDisk a.static).mono fun past' r hr => ?_)
  subst hr
  rcases r with e | staticArchived
  · trivial
  refine Meets.bind ((meets_onDisk a.runtime).mono fun past' r hr => ?_)
  subst hr
  rcases r with e | ⟨runtimeArchived, rejected, stale⟩
  · trivial
  refine Meets.bind ((meets_load opts.now).mono fun past' r hr => ?_)
  rcases r with e | ⟨_ | trigger, status⟩
  · trivial
  · unfold saveState
    dsimp only
    split_ifs <;> trivial
  obtain ⟨raw, rfl, hdigest⟩ := hr
  refine Meets.bind (meets_atomically fun s => ?_)
  dsimp only [silent]
  split_ifs
  · exact ⟨rfl, trivial⟩
  · refine ⟨rfl, ?_⟩
    exact @Meets.ensuring _ _ _ _ (CloudRule cfg py) _ releaseSweepLock (fun _ _ => rfl) _ _
      (meets_sweepLocked hinj hdigest staticArchived runtimeArchived rejected stale)

/-! ### Runs side by side -/

/-- The states of the cloud host: writers, and runs of `triggered_sweep_run`. -/
def Reaches (cfg : Config) (py : Py) (first : Site World) :
    System (Site World) (Event Path Found Summary) PyError RunSummary → Prop :=
  Reachable Outside (fun x => ∃ opts a, x = triggeredSweepRun cfg py opts a) first

theorem Reaches.trace (hinj : Function.Injective py.sha256) {first : Site World}
    {c : System (Site World) (Event Path Found Summary) PyError RunSummary}
    (h : Reaches cfg py first c) : Trace Outside (CloudRule cfg py) first c.history c.shared := by
  have hstarts : ∀ x, (∃ opts a, x = triggeredSweepRun cfg py opts a) →
      Meets (CloudRule cfg py) (fun _ _ => True) [] x := by
    rintro _ ⟨opts, a, rfl⟩
    exact meets_triggeredSweepRun hinj a
  exact (Reachable.trace hstarts h).2

end Cloudx.Cloud.TriggeredSweep
