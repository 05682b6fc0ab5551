import Cloudx.Cloud.QuarantineCalls
import Cloudx.Cloud.Receipts
import Cloudx.Cloud.Sweep
import Cloudx.Lib.Threads
import Cloudx.Python.Clock
import Cloudx.Shared.Trigger

/-! # The monitor of the cloud accounts

`cpa_health.run` archives in three ways: the records that are dead by themselves, the files that a
receipt of the gateway condemns, and the files whose accounts a probe has found dead. It shares the
disk with the gateway, the importer and other runs of itself, so it is a program of many accesses:
one for each directory that is listed, each file that is read or hashed, each receipt, and each
quarantine, which holds its lock.

A run reports what it has seen and done: the files it read, the receipts it accepted, the files it
hashed, and the files it took away. -/

namespace Cloudx.Cloud.Archivers

open Cloudx.Lib.Fault Cloudx.Lib.Threads Cloudx.Lib.Threads.Thread
open Cloudx.Python.Text Cloudx.Python.Value Cloudx.Python.Dump
open Cloudx.Shared.Http Cloudx.Shared.Receipt
open Cloudx.Cloud.Disk Cloudx.Cloud.Quarantine Cloudx.Cloud.Auth Cloudx.Cloud.Refresh
open Cloudx.Cloud.Receipts Cloudx.Cloud.Quota Cloudx.Cloud.Sweep

/-- `MAX_FAILURE_RECEIPTS` -/
def maxFailureReceipts : ℕ := 2048

/-! ### What is reported -/

/-- Why a file is taken away. The instants are those at which a record was judged and a receipt was
found to be fresh. -/
inductive Cause where
  | static (now : ℚ) (reason : Str)
  | runtime (now : ℚ) (reason : Str)
  | probe (reason : Reason)
deriving DecidableEq

/-- The `reason` of a call of `quarantine_auth_record`. -/
def Cause.text : Cause → Str
  | .static _ reason => reason
  | .runtime _ reason => lit "runtime-" ++ reason
  | .probe reason => lit "probe-" ++ reason.text

/-- What happened at an access: a file was read by the static scan or for the probes, a receipt was
accepted, a file was hashed, or a file was taken into the archive; and what others did: a path of the
auth tree was written. -/
inductive Event where
  | scanned (path : Path) (content : AuthRead)
  | context (path : Path) (content : AuthRead)
  | receipt (path : Path) (now : ℚ) (failure : Failure)
  | hashed (path : Path) (file : File)
  | moved (path : Path) (name : FileName) (file : File) (cause : Cause)
  | unlinked (path : Path)
  | wrote (path : Path)
deriving DecidableEq

/-- A run of the monitor, or a part of one. -/
abbrev Program := Thread World Event PyError

/-- The last name of a path. -/
def lastName (path : Path) : Str := (path.getLast?.map FileName.text).getD []

/-! ### The options of a run -/

/-- The directory of the receipts and the state file of the static maintenance, both away from the
credentials and their archive. -/
structure Places (cfg : Config) where
  failureDir : Path
  statePath : Path
  receipts : ∀ n, ¬ cfg.authDir <+: failureDir ++ [n] ∧ ¬ cfg.archiveDir <+: failureDir ++ [n]
  state : ¬ cfg.authDir <+: statePath ∧ ¬ cfg.archiveDir <+: statePath

/-- A call that archives: the instant it starts, its text, and the steps that fail. -/
structure Call where
  now : ℚ
  nowText : Str
  quarantineFails : Path → Step → Bool
  unlinkFails : Path → Bool

/-- The arguments and the circumstances of a run: its calls, and what the walk through the directory
yields meanwhile. -/
structure RunOptions (cfg : Config) extends SweepOptions where
  places : Places cfg
  walk : World → Except PyError (List Path)
  confirmations : ℕ
  static : Call
  runtime : Call
  later : Call
  probed : Call
  stateFails : WriteStep → Bool
  saveFails : Bool

section

variable {cfg : Config} (py : Py) (opts : RunOptions cfg)

/-! ### Reading -/

/-- `_iter_json_files` -/
def listFiles : Program (List Path) := look (fun _ => none) opts.walk

/-- `read_auth_json`, with the path it was for. -/
def readFile (note : Path → AuthRead → Event) (path : Path) : Program (Path × AuthRead) :=
  look (fun w => match readAuthJson w path with
    | .ok content => some (note path content)
    | .error _ => none) fun w => (readAuthJson w path).map (path, ·)

/-- `scan_auth_records` -/
def scan : Program (List AuthRecord) := do
  let paths ← listFiles opts
  let reads ← each (readFile .scanned) paths
  lift (scanAuthRecords py reads)

/-- Reports the file that was hashed. -/
def noteHashed (path : Path) (w : World) : Option Event := (safeFile w path).map (.hashed path)

/-- `_sha256`; nothing for its `OSError`. -/
def hashFile (path : Path) : Program (Option Str) :=
  look (noteHashed path) fun w => .ok ((safeFile w path).map fun f => py.sha256 f.bytes)

/-! ### Quarantining -/

/-- Reports the file that a quarantine took away, and the name it got. -/
def noteMoved (cfg : Config) (path : Path) (cause : Cause) (w w' : World) : Option Event :=
  match fileAt w path, fileAt w' path with
  | some f, none => some (.moved path (QuarantineCalls.archiveNameOf cfg w path) f cause)
  | _, _ => none

/-- `quarantine_auth_record` -/
def quarantine (cfg : Config) (call : Call) (path : Path) (cause : Cause) : Program FileName :=
  atomically (noteMoved cfg path cause)
    (quarantineAuthRecord cfg py true (call.quarantineFails path) path cause.text call.nowText)

/-! ### `archive_static_failures` -/

/-- One record of `refresh_auth_accounts`. -/
def refreshRecord (record : AuthRecord) (c : Collected) : Program Collected :=
  let reason := (staticFailureReason py opts.static.now record).1
  if harmless reason then
    pure ⟨accountState c.accounts record 0 reason none, c.active ++ [(record, reason)], c.actions⟩
  else do
    let target ← quarantine py cfg opts.static record.path (.static opts.static.now reason)
    return ⟨accountState c.accounts record opts.confirmations reason (some opts.static.nowText),
      c.active, c.actions ++ [⟨record, reason, opts.confirmations, some target⟩]⟩

/-- The loop of `refresh_auth_accounts`. -/
def refreshLoop : List AuthRecord → Collected → Program Collected
  | [], c => pure c
  | record :: rest, c => do
    let c ← refreshRecord py opts record c
    refreshLoop rest c

/-- `archive_static_failures`, with `refresh_auth_accounts`: the names of the files it moved. -/
def archiveStaticFailures : Program (List Str) := do
  let records ← scan py opts
  let state ← look (fun _ => none) fun w => readPrivateJson w opts.places.statePath
  let result ← refreshLoop py opts records ⟨asDict (get state (lit "accounts")), [], []⟩
  atomically silent (atomicWriteJson py opts.stateFails opts.places.statePath
    (set state (lit "accounts") (.obj result.accounts)))
  return result.actions.filterMap fun action =>
    action.target.map fun _ => lastName action.record.path

/-! ### `archive_runtime_failures` -/

/-- What a path of the receipts holds. -/
def entryAt (w : World) (path : Path) : Entry :=
  match w.nodes.lookup path with
  | some (.file f) => .file f
  | some _ => .refused
  | none => if path ∈ w.dirs then .refused else .absent

/-- `sorted(failure_dir.glob("*.json"))` -/
def receiptPaths (failureDir : Path) (w : World) : List Path :=
  ((namesIn failureDir (w.nodes.keys ∪ w.dirs)).filter fun n => endsWith n (lit ".json")).filterMap
    fun n => (FileName.ofStr? n).map fun name => failureDir ++ [name]

/-- Reports a receipt that was accepted. -/
def noteReceipt (now : ℚ) (path : Path) (w : World) : Option Event :=
  match failureReceipt py now (entryAt w path) with
  | .ok (some failure) => some (.receipt path now failure)
  | _ => none

/-- `_failure_receipt` -/
def readReceipt (now : ℚ) (path : Path) : Program (Option Failure) :=
  look (noteReceipt py now path) fun w => failureReceipt py now (entryAt w path)

/-- `receipt_path.unlink()`, whose `OSError` is caught. -/
def unlinkReceipt (call : Call) (path : Path) : Program Unit :=
  atomically (fun _ _ => if call.unlinkFails path then none else some (.unlinked path))
    (.modify fun w => if call.unlinkFails path then w else { w with nodes := w.nodes.erase path })

/-- What became of a receipt; an archived file has its name. -/
inductive Outcome where
  | archived (name : Str)
  | rejected
  | stale
deriving DecidableEq

/-- `records[name]`: the records of a file directly in the auth directory. -/
def recordsNamed (cfg : Config) (records : List AuthRecord) (name : Str) : List AuthRecord :=
  records.filter fun record =>
    record.path ≠ [] && record.path.dropLast = cfg.authDir && lastName record.path = name

/-- What `archive_runtime_failures` does with an accepted receipt. -/
def archiveReceipt (cfg : Config) (call : Call) (records : List AuthRecord) (path : Path)
    (failure : Failure) : Program Outcome :=
  match recordsNamed cfg records failure.authFile with
  | [record] => do
    let digest ← hashFile py record.path
    if digest ≠ some failure.digest then return .stale
    let _ ← quarantine py cfg call record.path (.runtime call.now failure.reason)
    unlinkReceipt call path
    return .archived (lastName record.path)
  | _ => pure .stale

/-- The loop body of `archive_runtime_failures`. -/
def takeReceipt (cfg : Config) (call : Call) (records : List AuthRecord) (indexed : Path × ℕ) :
    Program Outcome :=
  if maxFailureReceipts ≤ indexed.2 then pure .rejected
  else do
    match ← readReceipt py call.now indexed.1 with
    | none => return .rejected
    | some failure => archiveReceipt py cfg call records indexed.1 failure

/-- The name of an archived file. -/
def Outcome.name? : Outcome → Option Str
  | .archived name => some name
  | _ => none

/-- `archive_runtime_failures`: the names of the files it moved, and how many receipts were rejected
and how many stale. -/
def archiveRuntimeFailures (call : Call) : Program (List Str × ℕ × ℕ) := do
  let isDir ← look (fun _ => none) fun w => .ok (decide (opts.places.failureDir ∈ w.dirs))
  if !isDir then return ([], 0, 0)
  let records ← scan py opts
  let paths ← look (fun _ => none) fun w => .ok (receiptPaths opts.places.failureDir w)
  let outcomes ← each (takeReceipt py cfg call records) paths.zipIdx
  return (outcomes.filterMap Outcome.name?, outcomes.countP (· = .rejected),
    outcomes.countP (· = .stale))

/-! ### `probe_accounts` -/

/-- `probe_accounts` -/
def probeAccounts : Program (Summary × List Candidate) := do
  let paths ← listFiles opts
  let reads ← each (readFile .context) paths
  let contexts := authContexts py cfg.authDir reads
  let digests ← each (hashFile py)
    (if reaches opts.toSweepOptions contexts then contexts.map Context.path else [])
  lift (assess py opts.toSweepOptions contexts (digests.map fun d => d.getD []))

/-! ### `archive_permanent_probe_failures` -/

/-- `pathlib.Path(path).is_file()`, for a link that leads somewhere as if it led to a file: it is not
hashed in any case. -/
def isFile (w : World) (path : Path) : Bool :=
  match w.nodes.lookup path with
  | some (.file _) => true
  | some (.locked _) => true
  | some (.symlink alive) => alive
  | _ => false

/-- The loop body of `archive_permanent_probe_failures`: the name of an archived file, or nothing for
a stale candidate. -/
def archiveCandidate (cfg : Config) (call : Call) (records : List AuthRecord)
    (candidate : Candidate) : Program (Option Str) :=
  if !records.any (·.path = candidate.path) then pure none
  else do
    let there ← look (fun _ => none) fun w => .ok (isFile w candidate.path)
    if !there then return none
    let digest ← hashFile py candidate.path
    if digest ≠ some candidate.authSha256 ∨ candidate.reason ∉ permanentAuthFailureReasons then
      return none
    let _ ← quarantine py cfg call candidate.path (.probe candidate.reason)
    return some (lastName candidate.path)

/-- `archive_permanent_probe_failures`: the names of the files it moved, and how many candidates were
stale. -/
def archivePermanentProbeFailures (candidates : List Candidate) : Program (List Str × ℕ) := do
  let records ← scan py opts
  let outcomes ← each (archiveCandidate py cfg opts.probed records)
    (candidates.insertionSort fun a b => pathText a.path ≤ pathText b.path)
  return (outcomes.filterMap id, outcomes.countP (· = none))

/-! ### `run` -/

/-- What a run writes to its state file. -/
structure RunSummary where
  pool : Summary
  archivedFiles : List Str
  runtimeArchived : ℕ
  probeArchived : ℕ
  staleProbeCandidates : ℕ
  rejectedReceipts : ℕ
  staleReceipts : ℕ
deriving DecidableEq

/-- `sorted(set(names))` -/
def sortedSet (names : List Str) : List Str := names.dedup.insertionSort (· ≤ ·)

/-- `save_state` -/
def saveState : Program Unit := if opts.saveFails then Thread.raise .os else pure ()

/-- `run` without a mode. -/
def run : Program RunSummary := do
  let staticArchived ← archiveStaticFailures py opts
  let (runtimeArchived, rejected, stale) ← archiveRuntimeFailures py opts opts.runtime
  let (summary, candidates) ← probeAccounts py opts
  let (laterArchived, laterRejected, laterStale) ← archiveRuntimeFailures py opts opts.later
  let (probeArchived, staleCandidates) ← archivePermanentProbeFailures py opts candidates
  let runtimeArchived := sortedSet (runtimeArchived ++ laterArchived)
  saveState opts
  return {
    pool := summary
    archivedFiles := sortedSet (staticArchived ++ runtimeArchived ++ probeArchived)
    runtimeArchived := runtimeArchived.length
    probeArchived := probeArchived.length
    staleProbeCandidates := staleCandidates
    rejectedReceipts := max rejected laterRejected
    staleReceipts := max stale laterStale }

end

/-! ### A small host -/

/-- A file with an access token, and nothing else. -/
def tokenFile : File := jsonFile onePy true [(lit "access_token", .str (lit "a.b.c"))]

/-- The digest that `tokenFile` has for `hostPy`. -/
def tokenDigest : Str :=
  lit "7692c3ad3540bb803c020b3aee66cd8887123234ea0c6e7143c0add73ff431ed"

/-- An interpreter that knows the digest of `tokenFile` and the text of the epoch. -/
def hostPy : Py :=
  { tablePy [(tokenFile.bytes, tokenDigest)] [] [] with
    isoformat := fun _ => Python.Clock.epochText
    fromisoformat := fun s => if s = Python.Clock.epochText then some 0 else none
    hasZone := fun _ => true }

/-- A receipt for the file `a.json`. -/
def receiptFile : File := jsonFile onePy true [
  (lit "schema", .str failureSchema), (lit "authFile", .str aJson.text),
  (lit "authSha256", .str tokenDigest), (lit "reason", .str (lit "account_deactivated")),
  (lit "permanentAuthFailure", .bool true), (lit "weeklyQuota", .bool false),
  (lit "failureCount", .int 1), (lit "observedAt", .str Python.Clock.epochText)]

/-- The directory `/failures` and the file `/state.json`. -/
def samplePlaces : Places sampleConfig where
  failureDir := [⟨lit "failures", by decide⟩]
  statePath := [⟨lit "state.json", by decide⟩]
  receipts n := by constructor <;> simp [sampleConfig, lit]
  state := by decide

/-- The files `/auth/a.json`, with a token, and `/failures/a.json`, a receipt for it. -/
def receiptDisk : World :=
  ⟨(Finmap.singleton samplePath (.file tokenFile)).insert (samplePlaces.failureDir ++ [aJson])
    (.file receiptFile), {[], sampleConfig.authDir, samplePlaces.failureDir}, none⟩

/-- A call at the epoch, without failing steps. -/
def sampleCall : Call := ⟨0, Python.Clock.epochText, fun _ => steady, fun _ => false⟩

/-- A run at the epoch that reaches no endpoint. -/
def sampleRun : RunOptions sampleConfig where
  opener _ := .raised
  clock _ := ⟨0, 0⟩
  checkedAt := Python.Clock.epochText
  movedAt := Python.Clock.epochText
  warningAvailableAccounts := 3
  probeConcurrency := 1
  places := samplePlaces
  walk := iterJsonFiles hostPy sampleConfig.authDir
  confirmations := 2
  static := sampleCall
  runtime := sampleCall
  later := sampleCall
  probed := sampleCall
  stateFails _ := false
  saveFails := false

end Cloudx.Cloud.Archivers
