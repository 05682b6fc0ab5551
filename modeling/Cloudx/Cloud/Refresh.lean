import Cloudx.Lib.Interleave
import Cloudx.Cloud.Auth

/-! # Static maintenance of the cloud auth directory

`refresh_auth_accounts` reads every file of the auth directory, judges the records it found and
quarantines the files of the dead ones. Others write the same directory, so the run is one of many
accesses: a read for each file, then a quarantine for each record that failed. A quarantine holds its
lock and is one access.

The log of a run says which file each read found and which file each quarantine took away. -/

namespace Cloudx.Cloud.Refresh

open Cloudx.Lib.Fault Cloudx.Lib.Interleave
open Cloudx.Python.Text Cloudx.Python.Value Cloudx.Python.Dump
open Cloudx.Shared.Credential
open Cloudx.Cloud.Disk Cloudx.Cloud.Quarantine Cloudx.Cloud.Auth

/-- What a read is for: the static scan, the contexts of a probe, or a digest. -/
inductive Purpose where
  | scan
  | context
  | digest
deriving DecidableEq

/-- What happened at an access: a read found a regular file or none, a quarantine took a file away. -/
inductive Event where
  | read (purpose : Purpose) (tick : ℕ) (path : Path) (found : Option File)
  | moved (tick : ℕ) (path : Path) (file : File)
deriving DecidableEq

/-- A run of the maintenance. -/
abbrev Maintenance := Run World Event

/-- Others that leave the disk alone. -/
def quiet : ℕ → World → World := fun _ w => w

/-- Logs a read. -/
def noteRead (purpose : Purpose) (path : Path) : ℕ → World → World → List Event := fun tick w _ =>
  [.read purpose tick path (fileAt w path)]

/-- Logs the file that a quarantine took away. -/
def noteMoved (path : Path) : ℕ → World → World → List Event := fun tick w w' =>
  match fileAt w path, fileAt w' path with
  | some f, none => [.moved tick path f]
  | _, _ => []

section

variable (others : ℕ → World → World)

/-- `read_auth_json` as an access, with the path it was for. -/
def readAccess (purpose : Purpose) (path : Path) : Act Maintenance PyError (Path × AuthRead) :=
  access others (noteRead purpose path) (observe fun w => (readAuthJson w path).map (path, ·))

/-- `scan_auth_records`; `paths` are the files that `_iter_json_files` yields meanwhile. -/
def scan (py : Py) (paths : List Path) : Act Maintenance PyError (List AuthRecord) := do
  let reads ← each (readAccess others .scan) paths
  lift (scanAuthRecords py reads)

/-- `quarantine_auth_record` as an access. -/
def quarantineAccess (cfg : Config) (py : Py) (record : AuthRecord) (reason movedAt : Str) :
    Act Maintenance PyError FileName :=
  access others (noteMoved record.path)
    (quarantineAuthRecord cfg py true steady record.path reason movedAt)

end

/-- `_read_private_json(path)` -/
def readPrivateJson (w : World) (path : Path) : Except PyError Dict :=
  match w.nodes.lookup path with
  | some (.file f) =>
    if maxManifestBytes < f.bytes.length then .ok []
    else match f.content with
      | .raised e => .error e
      | .unicodeError => .error .value
      | .value (.obj d) => .ok d
      | _ => .ok []
  | _ => .ok []

/-- The reasons that are no failures. -/
def harmless (reason : Str) : Bool := reason = lit "unknown" || reason = lit "disabled"

/-- An entry of `actions`: the record, the reason, and its new name if it was quarantined. -/
structure Action where
  record : AuthRecord
  reason : Str
  failureCount : ℕ
  target : Option FileName
deriving DecidableEq

/-- What `refresh_auth_accounts` collects: the state of the accounts and the two lists. -/
structure Collected where
  accounts : Dict
  active : List (AuthRecord × Str)
  actions : List Action

/-- The state of an account after a verdict. -/
def accountState (accounts : Dict) (record : AuthRecord) (count : ℕ) (reason : Str)
    (failedAt : Option Str) : Dict :=
  let entry := set (set (asDict (get accounts (pathText record.path))) (lit "failure_count")
    (.int count)) (lit "last_reason") (.str reason)
  set accounts (pathText record.path) (.obj (match failedAt with
    | some t => set entry (lit "last_failed_at") (.str t)
    | none => entry))

/-- The options of a call: the time, its text, the confirmations and whether to apply. -/
structure Options where
  now : ℚ
  nowText : Str
  confirmations : ℕ
  apply : Bool

/-- The loop of `refresh_auth_accounts`. Every reason that is not harmless is permanent
(`permanent_of_harmful`), so its count is `confirmations` at once. -/
def refreshLoop (others : ℕ → World → World) (cfg : Config) (py : Py) (opts : Options) :
    List AuthRecord → Collected → Act Maintenance PyError Collected
  | [], c => pure c
  | record :: rest, c =>
    let reason := (staticFailureReason py opts.now record).1
    if harmless reason then
      refreshLoop others cfg py opts rest
        ⟨accountState c.accounts record 0 reason none, c.active ++ [(record, reason)], c.actions⟩
    else if opts.apply then do
      let target ← quarantineAccess others cfg py record reason opts.nowText
      refreshLoop others cfg py opts rest
        ⟨accountState c.accounts record opts.confirmations reason (some opts.nowText), c.active,
          c.actions ++ [⟨record, reason, opts.confirmations, some target⟩]⟩
    else
      refreshLoop others cfg py opts rest
        ⟨accountState c.accounts record opts.confirmations reason (some opts.nowText), c.active,
          c.actions ++ [⟨record, reason, opts.confirmations, none⟩]⟩

/-- `refresh_auth_accounts`; the state file is at `statePath`. -/
def refreshAuthAccounts (others : ℕ → World → World) (cfg : Config) (py : Py) (opts : Options)
    (paths : List Path) (statePath : Path) : Act Maintenance PyError Collected := do
  let records ← scan others py paths
  let state ← access others silent (observe fun w => readPrivateJson w statePath)
  let result ← refreshLoop others cfg py opts records ⟨asDict (get state (lit "accounts")), [], []⟩
  if opts.apply then
    access others silent (atomicWriteJson py (fun _ => false) statePath
      (set state (lit "accounts") (.obj result.accounts)))
  return result

end Cloudx.Cloud.Refresh
