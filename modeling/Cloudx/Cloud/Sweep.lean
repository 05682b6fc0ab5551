import Cloudx.Cloud.AuthScan
import Cloudx.Cloud.Refresh
import Cloudx.Cloud.Quota

/-! # Sweeping the cloud accounts

`probe_accounts` reads the contexts of all files, checks the transport, hashes the file of each
context and probes each credential once. A file all of whose contexts failed for good is a candidate,
and `archive_permanent_probe_failures` quarantines it if its digest is still the same.

The reads and hashes are accesses to a disk that others write too. The new hash and the quarantine of
a candidate are one access. -/

namespace Cloudx.Cloud.Sweep

open Cloudx.Lib.Fault Cloudx.Lib.Interleave Cloudx.Lib.Memo
open Cloudx.Python.Text Cloudx.Python.Value Cloudx.Python.Dump
open Cloudx.Shared.Credential
open Cloudx.Shared.Http
open Cloudx.Cloud.Disk Cloudx.Cloud.Quarantine Cloudx.Cloud.Auth Cloudx.Cloud.Refresh
open Cloudx.Cloud.AuthScan Cloudx.Cloud.Quota

/-- `DEFAULT_PROBE_CONCURRENCY` -/
def defaultProbeConcurrency : ℤ := 32

/-- `MAX_PROBE_CONCURRENCY` -/
def maxProbeConcurrency : ℤ := 64

/-! ### Credentials -/

section

variable (py : Py)

/-- The JSON text of a credential, with its keys in order and no blanks. -/
def credentialText (auth : Dict) : Str :=
  let tokens := authTokens py auth
  lit "\x7b\"accessToken\":" ++ quote false tokens.access ++
    lit ",\"accountId\":" ++ quote false (authAccountId py auth) ++
    lit ",\"authMode\":" ++ quote false (py.lower (py.text [get auth (lit "auth_mode")])) ++
    lit ",\"hasRefreshToken\":" ++
    (if tokens.refresh ≠ [] then lit "true" else lit "false") ++ lit "\x7d"

/-- `credential_key`; a lone surrogate has no UTF-8 form. -/
def credentialKey (auth : Dict) : Except PyError Str :=
  if encodable (credentialText py auth) then .ok (py.sha256 (utf8 (credentialText py auth)))
  else .error .unicodeEncode

/-- The probes of some credentials. Each is probed once, at the time its clock says. -/
def probeCredentials (opener : Opener) (clock : Str → Clock) (auths : List Dict) :
    Except PyError (List (Option ProbeResult)) :=
  shared (credentialKey py) (fun key auth => probeAccountQuotaHttp py opener (clock key) auth) auths

/-- `runtime.payload_auth` of each context. -/
def credentials (contexts : List Context) : List Dict :=
  contexts.map fun context => payloadAuth py context.payload

end

/-! ### Summaries -/

/-- `state` of a summary. -/
inductive PoolState where
  | probeError
  | exhausted
  | lowCapacity
  | healthy
deriving DecidableEq

/-- `probe_gate` -/
inductive ProbeGate where
  | noAccounts
  | transport (gate : Gate)
deriving DecidableEq

/-- The summary of a sweep. -/
structure Summary where
  state : PoolState
  checkedAt : Str
  total : ℕ
  available : ℕ
  ready : ℕ
  warning : ℕ
  limited : ℕ
  invalid : ℕ
  failed : ℕ
  zeroQuota : ℕ
  lowQuota : ℕ
  earliestReset : Str
  probeGate : ProbeGate
  probeConcurrency : ℤ
  uniqueProbeCredentials : Option ℕ
deriving DecidableEq

/-- How many probes have a status. -/
def countStatus (status : ProbeStatus) (probes : List (Option ProbeResult)) : ℕ :=
  probes.countP fun item => item.map ProbeResult.status = some status

/-- `summarize_probes`, with the fields that `probe_accounts` adds. -/
def summarizeProbes (warningAvailableAccounts : ℤ) (checkedAt : Str)
    (probes : List (Option ProbeResult)) (gate : ProbeGate) (concurrency : ℤ)
    (unique : Option ℕ) : Summary :=
  let available := countStatus .ready probes + countStatus .warning probes
  let limited := countStatus .limited probes
  let failed := probes.length - available - limited
  let resets := ((probes.filterMap fun item => item.bind ProbeResult.unavailableUntil).filter
    (· ≠ [])).insertionSort (· ≤ ·)
  let remaining : List ℤ := probes.filterMap fun item => item.bind fun r => r.remainingPercents.min?
  { state :=
      if probes = [] ∨ failed = probes.length then .probeError
      else if available = 0 ∧ 0 < limited then .exhausted
      else if (available : ℤ) ≤ max 1 warningAvailableAccounts then .lowCapacity
      else .healthy
    checkedAt := checkedAt
    total := probes.length
    available := available
    ready := countStatus .ready probes
    warning := countStatus .warning probes
    limited := limited
    invalid := countStatus .invalid probes
    failed := failed
    zeroQuota := remaining.countP (· ≤ 0)
    lowQuota := remaining.countP fun value => 0 < value ∧ value ≤ 10
    earliestReset := resets.head?.getD []
    probeGate := gate
    probeConcurrency := concurrency
    uniqueProbeCredentials := unique }

/-! ### Candidates -/

/-- An entry of `permanent_candidates`. -/
structure Candidate where
  path : Path
  authSha256 : Str
  reason : Reason
deriving DecidableEq

/-- The reason of a permanent failure, if it is one that allows to archive. -/
def archiveReason : Option ProbeResult → Option Reason
  | some item =>
    if item.permanentAuthFailure && item.weeklyQuota = some false then
      item.failureReason.filter (· ∈ permanentAuthFailureReasons)
    else none
  | none => none

/-- The candidate of a path with its observations, each a probe and a digest. -/
def judge (path : Path) (observations : List (Option ProbeResult × Str)) : Option Candidate :=
  match observations.mapM fun o => archiveReason o.1 with
  | none => none
  | some reasons =>
    match ((observations.map Prod.snd).filter (· ≠ [])).dedup with
    | [digest] =>
      if observations.any (·.2 = []) then none else (firstReason reasons).map (⟨path, digest, ·⟩)
    | _ => none

/-- The candidates of a sweep. -/
def permanentCandidates (contexts : List Context) (probes : List (Option ProbeResult))
    (digests : List Str) : List Candidate :=
  ((groups ((contexts.map Context.path).zip (probes.zip digests))).insertionSort
    fun a b => pathText a.1 ≤ pathText b.1).filterMap fun g => judge g.1 g.2

/-- The file at a path as `_safe_file_bytes` reads it: a regular file that is not too large. -/
def safeFile (w : World) (path : Path) : Option File :=
  match w.nodes.lookup path with
  | some (.file f) => if maxAuthFileBytes < f.bytes.length then none else some f
  | _ => none

/-- `_sha256`, or the empty text for its `OSError`. -/
def digestOf (py : Py) (w : World) (path : Path) : Str :=
  ((safeFile w path).map fun f => py.sha256 f.bytes).getD []

/-- The arguments of a sweep: the HTTP behaviour, the clock of each probe, and the options. -/
structure SweepOptions where
  opener : Opener
  clock : Str → Clock
  checkedAt : Str
  movedAt : Str
  warningAvailableAccounts : ℤ
  probeConcurrency : ℤ

/-- `probe_accounts` on its contexts and the digest of each. -/
def assess (py : Py) (opts : SweepOptions) (contexts : List Context) (digests : List Str) :
    Except PyError (Summary × List Candidate) :=
  let summarize := summarizeProbes opts.warningAvailableAccounts opts.checkedAt
  if contexts = [] then .ok (summarize [] .noAccounts 0 none, [])
  else match transport opts.opener with
    | .reachable => do
      let auths := credentials py contexts
      let probes ← probeCredentials py opts.opener opts.clock auths
      let unique := (firsts ((keyed (credentialKey py) auths).toOption.getD [])).length
      return (summarize probes (.transport .reachable)
        (min (max 1 (min maxProbeConcurrency opts.probeConcurrency)) unique) (some unique),
        permanentCandidates contexts probes digests)
    | gate => .ok (summarize (contexts.map fun _ => none) (.transport gate) 0 none, [])

/-! ### Runs -/

section

variable (others : ℕ → World → World) (cfg : Config) (py : Py) (opts : SweepOptions)

/-- `_sha256` as an access. -/
def digestAccess (path : Path) : Act Maintenance PyError Str :=
  access others (noteRead .digest path) (observe fun w => .ok (digestOf py w path))

/-- Whether `probe_accounts` comes to hash the files and to probe. -/
def reaches (contexts : List Context) : Bool := contexts ≠ [] && transport opts.opener = .reachable

/-- `probe_accounts`; `paths` are the files that `_iter_json_files` yields. -/
def probeAccounts (paths : List Path) : Act Maintenance PyError (Summary × List Candidate) := do
  let reads ← each (readAccess others .context) paths
  let contexts := authContexts py cfg.authDir reads
  let digests ← each (digestAccess others py)
    (if reaches opts contexts then contexts.map Context.path else [])
  lift (assess py opts contexts digests)

/-- Quarantines the file of a candidate if it still has the digest. -/
def quarantineUnchanged (candidate : Candidate) : Act World PyError (Option FileName) := do
  let w ← Act.get
  if safeFile w candidate.path ≠ none ∧ digestOf py w candidate.path = candidate.authSha256 ∧
      candidate.reason ∈ permanentAuthFailureReasons then
    let target ← quarantineAuthRecord cfg py true steady candidate.path
      (lit "probe-" ++ candidate.reason.text) opts.movedAt
    return some target
  else return none

/-- The loop body of `archive_permanent_probe_failures`: the name of an archived file, or nothing for
a stale candidate. -/
def archiveCandidate (records : List AuthRecord) (candidate : Candidate) :
    Act Maintenance PyError (Option Str) :=
  if records.any (·.path = candidate.path) then do
    let target ← access others (noteMoved candidate.path) (quarantineUnchanged cfg py opts candidate)
    return target.map fun _ => (candidate.path.getLast?.map FileName.text).getD []
  else return none

/-- `archive_permanent_probe_failures` -/
def archivePermanentProbeFailures (paths : List Path) (candidates : List Candidate) :
    Act Maintenance PyError (List Str × ℕ) := do
  let records ← scan others py paths
  let outcomes ← each (archiveCandidate others cfg py opts records)
    (candidates.insertionSort fun a b => pathText a.path ≤ pathText b.path)
  return (outcomes.filterMap id, outcomes.countP (· = none))

/-- A sweep: `probe_accounts`, then `archive_permanent_probe_failures` on its candidates. Each of the
two walks through the directory. -/
def sweep (paths scanned : List Path) : Act Maintenance PyError (Summary × List Str × ℕ) := do
  let (summary, candidates) ← probeAccounts others cfg py opts paths
  let archived ← archivePermanentProbeFailures others cfg py opts scanned candidates
  return (summary, archived)

end

/-! ### What a candidate is -/

/-- What an allowed reason says of a probe. -/
theorem archiveReason_some {item : Option ProbeResult} {reason : Reason}
    (h : archiveReason item = some reason) : ∃ r, item = some r ∧ r.permanentAuthFailure = true := by
  cases item with
  | none => exact absurd h (by simp [archiveReason])
  | some r =>
    simp only [archiveReason] at h
    split_ifs at h with hc
    exact ⟨r, rfl, (Bool.and_eq_true_iff.mp hc).1⟩

/-- **The observations of a candidate**: all probes permanent, all digests the candidate's one. -/
theorem judge_some {path : Path} {observations : List (Option ProbeResult × Str)} {c : Candidate}
    (h : judge path observations = some c) : c.path = path ∧ c.authSha256 ≠ [] ∧
      ∀ o ∈ observations, (∃ r, o.1 = some r ∧ r.permanentAuthFailure = true) ∧
        o.2 = c.authSha256 := by
  unfold judge at h
  split at h
  · exact absurd h (by simp)
  next reasons hreasons =>
  split at h
  next digest hdigest =>
    split_ifs at h with hempty
    obtain ⟨reason, -, rfl⟩ := Option.map_eq_some_iff.mp h
    have hmem : ∀ d, d ∈ ((observations.map Prod.snd).filter (· ≠ [])).dedup ↔ d = digest := by
      intro d; rw [hdigest, List.mem_singleton]
    simp only [List.mem_dedup, List.mem_filter, decide_eq_true_eq] at hmem
    refine ⟨rfl, ((hmem digest).mpr rfl).2, fun o ho => ⟨?_, ?_⟩⟩
    · obtain ⟨reason, hr⟩ := mapM_option_some hreasons o ho
      exact archiveReason_some hr
    · refine (hmem o.2).mp ⟨List.mem_map_of_mem ho, fun he => hempty ?_⟩
      exact List.any_eq_true.mpr ⟨o, ho, decide_eq_true he⟩
  next => exact absurd h (by simp)

/-- A candidate comes from a group of observations, one for each context of its path. -/
theorem mem_permanentCandidates {contexts : List Context} {probes : List (Option ProbeResult)}
    {digests : List Str} {c : Candidate} (h : c ∈ permanentCandidates contexts probes digests) :
    ∃ observations, observations ≠ [] ∧ judge c.path observations = some c ∧
      ∀ o, o ∈ observations ↔
        (c.path, o) ∈ (contexts.map Context.path).zip (probes.zip digests) := by
  obtain ⟨⟨path, observations⟩, hg, hj⟩ := List.mem_filterMap.mp h
  rw [List.mem_insertionSort] at hg
  obtain ⟨hne, hmem⟩ := mem_groups hg
  simp only at hj
  obtain ⟨rfl, -, -⟩ := judge_some hj
  exact ⟨observations, hne, hj, hmem⟩

/-- The probe of a context: a permanent result, for a cause, of a credential with the same key. -/
structure ProbedDead (py : Py) (opener : Opener) (clock : Str → Clock) (context : Context)
    (result : ProbeResult) : Prop where
  permanent : IsPermanent result
  probed : ∃ key auth, credentialKey py (payloadAuth py context.payload) = .ok key ∧
    credentialKey py auth = .ok key ∧
    probeAccountQuotaHttp py opener (clock key) auth = .ok (some result) ∧
    Cause py opener (clock key) auth

/-- **Every context of a candidate's path is dead**, and every digest is the candidate's. -/
theorem candidate_dead {py : Py} {opener : Opener} {clock : Str → Clock} {contexts : List Context}
    {probes : List (Option ProbeResult)} {digests : List Str} {c : Candidate}
    (hprobes : probeCredentials py opener clock (credentials py contexts) = .ok probes)
    (hlen : digests.length = contexts.length) (hc : c ∈ permanentCandidates contexts probes digests) :
    c.authSha256 ≠ [] ∧ (∃ x ∈ contexts, x.path = c.path) ∧
      ∀ (i : ℕ) x, contexts[i]? = some x → x.path = c.path → digests[i]? = some c.authSha256 ∧
        ∃ result, probes[i]? = some (some result) ∧ ProbedDead py opener clock x result := by
  obtain ⟨observations, hne, hj, hmem⟩ := mem_permanentCandidates hc
  obtain ⟨-, hdigest, hall⟩ := judge_some hj
  refine ⟨hdigest, ?_, fun i x hx hpath => ?_⟩
  · obtain ⟨o, ho⟩ := List.exists_mem_of_ne_nil _ hne
    obtain ⟨x, hx, hpath⟩ := List.mem_map.mp (List.of_mem_zip ((hmem o).mp ho)).1
    exact ⟨x, hx, hpath⟩
  · have hauth : (credentials py contexts)[i]? = some (payloadAuth py x.payload) := by
      rw [credentials, List.getElem?_map, hx]; rfl
    obtain ⟨r, hr, key, auth, hkey, -, hkey', hprobe⟩ :=
      forall₂_getElem? (forall_shared hprobes) hauth
    obtain ⟨hi, -⟩ := List.getElem?_eq_some_iff.mp hx
    have hd : digests[i]? = some digests[i] := List.getElem?_eq_getElem (by rw [hlen]; exact hi)
    have hzip : (c.path, r, digests[i]) ∈ (contexts.map Context.path).zip (probes.zip digests) := by
      refine List.mem_of_getElem? (i := i) (List.getElem?_zip_eq_some.mpr ⟨?_, ?_⟩)
      · rw [List.getElem?_map, hx, ← hpath]; rfl
      · exact List.getElem?_zip_eq_some.mpr ⟨hr, hd⟩
    obtain ⟨⟨result, hres, hperm⟩, hsame⟩ := hall _ ((hmem _).mpr hzip)
    simp only at hres hsame
    subst hres
    obtain ⟨h1, h2⟩ := probe_permanent hprobe hperm
    exact ⟨by rw [hd, hsame], result, hr, h1, key, auth, hkey, hkey', hprobe, h2⟩

/-- A sweep with candidates has probed. -/
theorem assess_ok {py : Py} {opts : SweepOptions} {contexts : List Context} {digests : List Str}
    {summary : Summary} {candidates : List Candidate} {c : Candidate}
    (h : assess py opts contexts digests = .ok (summary, candidates)) (hc : c ∈ candidates) :
    reaches opts contexts = true ∧ ∃ probes,
      probeCredentials py opts.opener opts.clock (credentials py contexts) = .ok probes ∧
        c ∈ permanentCandidates contexts probes digests := by
  unfold assess at h
  simp only at h
  split_ifs at h with hne
  · rw [← (Prod.mk.inj (Except.ok.inj h)).2] at hc
    exact absurd hc (by simp)
  split at h
  · next htransport =>
    obtain ⟨probes, hprobes, h⟩ := except_bind_ok h
    rw [← (Prod.mk.inj (Except.ok.inj h)).2] at hc
    exact ⟨by simp [reaches, hne, htransport], probes, hprobes, hc⟩
  · rw [← (Prod.mk.inj (Except.ok.inj h)).2] at hc
    exact absurd hc (by simp)

/-! ### One context -/

theorem permanentCandidates_single (context : Context) (probe : Option ProbeResult) {digest : Str}
    (h : digest ≠ []) : permanentCandidates [context] [probe] [digest] =
      ((archiveReason probe).map (⟨context.path, digest, ·⟩)).toList := by
  have hgroups : permanentCandidates [context] [probe] [digest] =
      (judge context.path [(probe, digest)]).toList := by
    simp only [permanentCandidates, List.map_cons, List.map_nil, List.zip_cons_cons, List.zip_nil_left,
      groups_single, List.insertionSort_cons, List.insertionSort_nil, List.orderedInsert_nil,
      List.filterMap_cons, List.filterMap_nil]
    rcases judge context.path [(probe, digest)] with _ | c <;> rfl
  rw [hgroups, judge, List.mapM_cons, List.mapM_nil]
  rcases archiveReason probe with _ | reason
  · simp
  · simp [h, firstReason]

/-- The key of a context can be made if its token and account can be encoded. -/
theorem credentialKey_payloadAuth (py : Py) (payload : Dict) :
    encodable (credentialText py (payloadAuth py payload)) =
      (encodable (authTokens py payload).access && encodable (authAccountId py payload)) := by
  have hflag : ∀ b : Prop, [Decidable b] → encodable (if b then lit "true" else lit "false") = true := by
    intro b _
    split_ifs <;> decide
  unfold credentialText
  simp only
  rw [authMode_payloadAuth, authTokens_payloadAuth, authAccountId_payloadAuth]
  simp only [encodable_append, encodable_quote, hflag]
  have h1 : encodable (lit "\x7b\"accessToken\":") = true := by decide
  have h2 : encodable (lit ",\"accountId\":") = true := by decide
  have h3 : encodable (lit ",\"authMode\":") = true := by decide
  have h4 : encodable (lit ",\"hasRefreshToken\":") = true := by decide
  have h5 : encodable (lit "\x7d") = true := by decide
  have h6 : encodable (lit "chatgpt") = true := by decide
  simp [h1, h2, h3, h4, h5, h6]

end Cloudx.Cloud.Sweep
