import Cloudx.Lib.Fault
import Cloudx.Scripts.GatewayKeys

/-! # The rotation of the gateway key

`_apply` of `install_scoped_gateway_key.py` takes snapshots of the gateway's config and of two files of
Cloudx, writes a backup of the config and a manifest, and then writes the three files, restarts the
gateway and probes it. When any of that raises, it restores the snapshots and checks them; whatever
that does, it removes the backup and the transaction directory.

Every access to a file, every command and every request is a step that can fail. A step of
`atomic_write` that fails comes before the file is replaced. -/

namespace Cloudx.Scripts.KeyRotation

open Cloudx.Lib.Fault Cloudx.Lib.Fault.Act
open Cloudx.Python.Text Cloudx.Python.Value Cloudx.Python.Dump Cloudx.Python.Decode
open Cloudx.Scripts.GatewayKeys

/-! ### Files -/

/-- `MAX_CONFIG_BYTES` -/
def maxConfigBytes : ℕ := 2 * 1024 * 1024

/-- `MAX_CREDENTIAL_BYTES` -/
def maxCredentialBytes : ℕ := 4096

/-- `Snapshot` -/
structure Snapshot where
  existed : Bool
  data : Bytes
  mode : ℕ
  uid : ℕ
  gid : ℕ
deriving DecidableEq

/-- What a path holds: nothing, no regular file, or a file with its mode and owners. -/
inductive Entry where
  | absent
  | special
  | file (data : Bytes) (mode uid gid : ℕ)
deriving DecidableEq

/-- The three files that are changed. -/
inductive Target where
  | config
  | credential
  | environment
deriving DecidableEq

/-- The files of the rotation: the three, the backup of the config, and the directory of the
transaction with its manifest. -/
structure Disk where
  config : Entry
  credential : Entry
  environment : Entry
  backup : Option Bytes
  transaction : Option (Option Dict)
deriving DecidableEq

/-- The entry of a target. -/
def Disk.entry (d : Disk) : Target → Entry
  | .config => d.config
  | .credential => d.credential
  | .environment => d.environment

/-- Another entry for a target. -/
def Disk.put (d : Disk) (entry : Entry) : Target → Disk
  | .config => { d with config := entry }
  | .credential => { d with credential := entry }
  | .environment => { d with environment := entry }

/-! ### Steps -/

/-- The accesses of `_safe_snapshot` and `snapshot`. -/
inductive Access where
  | lstat
  | isSymlink
  | pathExists
  | stat
  | read
deriving DecidableEq

/-- The accesses of `atomic_write`. -/
inductive WriteStep where
  | mkdir
  | mkstemp
  | fchmod
  | fchown
  | write
  | fsync
  | replace
deriving DecidableEq

/-- The steps of `_apply`, in their order: those before the gateway is touched, those of the rotation
and those of its recovery. -/
inductive Step where
  | accounts
  | before (target : Target) (access : Access)
  | oldPid
  | rotationRoot
  | makeTransaction
  | chownTransaction
  | backupRoot
  | backupExists
  | writeBackup (step : WriteStep)
  | prepareManifest (step : WriteStep)
  | unlinkPrepared
  | write (target : Target) (step : WriteStep)
  | restart
  | waitActive
  | probe
  | watches
  | observe (target : Target) (access : Access)
  | finalManifest (step : WriteStep)
  | restore (target : Target) (step : WriteStep)
  | restoreRestart
  | restoreActive
  | restoreProbe
  | restoreStatus
  | verify (target : Target) (access : Access)
  | unlinkBackup
deriving DecidableEq

/-- A program over the files. -/
abbrev Program := Act Disk PyError

section

variable (fails : Step → Bool)

/-- A step with no effect on the files. -/
def attempt (t : Step) : Program Unit := step fails t .os (pure ())

/-- `atomic_write`, which has the effect `f`. -/
def atomicWrite (at' : WriteStep → Step) (f : Disk → Disk) : Program Unit := do
  attempt fails (at' .mkdir)
  attempt fails (at' .mkstemp)
  attempt fails (at' .fchmod)
  attempt fails (at' .fchown)
  attempt fails (at' .write)
  attempt fails (at' .fsync)
  attempt fails (at' .replace)
  modify f

/-- `_safe_snapshot` -/
def safeSnapshot (at' : Access → Step) (target : Target) (label : String) (maximum : ℕ) :
    Program Snapshot := do
  step fails (at' .lstat) (runtimeError (label ++ " is unavailable")) (pure ())
  attempt fails (at' .isSymlink)
  let d ← Act.get
  match d.entry target with
  | .absent => raise (runtimeError (label ++ " is unavailable"))
  | .special => raise (runtimeError (label ++ " must be a regular non-symlink file"))
  | .file data mode uid gid =>
    if data = [] ∨ maximum < data.length then
      raise (runtimeError (label ++ " has an invalid size"))
    else do
      attempt fails (at' .pathExists)
      attempt fails (at' .stat)
      attempt fails (at' .read)
      return ⟨true, data, mode, uid, gid⟩

/-- `restore` -/
def restore (target : Target) (value : Snapshot) : Program Unit :=
  if value.existed then
    atomicWrite fails (.restore target) fun d =>
      d.put (.file value.data value.mode value.uid value.gid) target
  else do
    attempt fails (.restore target .replace)
    modify fun d => d.put .absent target

/-- `if not condition: raise RuntimeError(message)` -/
def ensure (condition : Bool) (message : String) : Program Unit :=
  if condition then pure () else raise (runtimeError message)

/-- The result of a check that does not touch the files. -/
def pureCheck {α : Type} : Except PyError α → Program α
  | .ok a => pure a
  | .error e => raise e

/-! ### The surroundings -/

/-- The arguments, and what the host answers when it does: the accounts, the new key and transaction,
the processes and the watches. -/
structure Host where
  artifact : Str
  releaseVersion : Str
  buildCommit : Str
  gatewayVersion : Str
  cloudxUid : ℕ
  cloudxGid : ℕ
  /-- `"cloudx-" + secrets.token_urlsafe(36)` -/
  key : Str
  transactionId : Str
  oldPid : ℤ
  newPid : ℤ
  watches : ℕ
  /-- `int(s)` of a text; `none` for `ValueError` -/
  int : Str → Option ℤ

/-- `str(n)` -/
def intText (n : ℤ) : Str := (if n < 0 then [45] else []) ++ decimal n.natAbs

/-- `environment_document` -/
def environmentDocument (h : Host) (host : Str) (port : ℤ) : Bytes :=
  utf8 ((lit "\n").intercalate [
    lit "CLOUDX_CLOUD_ARTIFACT=" ++ h.artifact,
    lit "CLOUDX_AUTH_DIR=/var/lib/cloudx/shadow-auth",
    lit "CLOUDX_IMPORT_LOCK=/run/cloudx-shadow/import.lock",
    lit "CLOUDX_HEALTH_PATH=/run/cloudx-shadow/health.json",
    lit "CLOUDX_ACCOUNT_STATE_PATH=/run/cloudx-shadow/accounts.json",
    lit "CLOUDX_ACCOUNT_STATE_SOURCE=/var/lib/cloudx/cpa-health/state.json",
    lit "CLOUDX_GATEWAY_URL=http://" ++ host ++ lit ":" ++ intText port,
    lit "CLOUDX_GATEWAY_FORWARD_HOST=" ++ host,
    lit "CLOUDX_GATEWAY_FORWARD_PORT=" ++ intText port,
    lit "CLOUDX_GATEWAY_VERSION=" ++ h.gatewayVersion,
    lit "CLOUDX_CLIENT_CREDENTIAL_FILE=/etc/cloudx/client-credential",
    lit "CLOUDX_DEPLOYMENT_ID=shadow-" ++ h.releaseVersion,
    lit "CLOUDX_BUILD_COMMIT=" ++ h.buildCommit,
    []])

variable (py : Py) (h : Host)

/-! ### Preparation -/

/-- What is known before the gateway is touched. -/
structure Prepared where
  configBefore : Snapshot
  credentialBefore : Snapshot
  environmentBefore : Snapshot
  oldKey : Str
  host : Str
  port : ℤ
  configAfter : Bytes
  oldKeyCount : ℕ
  manifest : Dict
deriving DecidableEq

/-- The manifest of a prepared rotation. -/
def preparedManifest (configBefore configAfter : Bytes) (oldKey : Str) (oldKeyCount : ℕ) : Dict :=
  [(lit "schema", .str (lit "cloudx.scoped-key-rotation.v1")), (lit "status", .str (lit "prepared")),
    (lit "transactionId", .str h.transactionId), (lit "releaseVersion", .str h.releaseVersion),
    (lit "artifact", .str h.artifact), (lit "unit", .str (lit "cliproxy.service")),
    (lit "config", .str (lit "/etc/cliproxy/config.yaml")),
    (lit "credential", .str (lit "/etc/cloudx/client-credential")),
    (lit "environment", .str (lit "/etc/cloudx/cloudx-shadow.env")),
    (lit "oldCredentialSha256", .str (py.sha256 (utf8 oldKey))),
    (lit "newCredentialSha256", .str (py.sha256 (utf8 h.key))),
    (lit "configSha256Before", .str (py.sha256 configBefore)),
    (lit "configSha256After", .str (py.sha256 configAfter)),
    (lit "gatewayKeyCountBefore", .int oldKeyCount),
    (lit "gatewayKeyCountAfter", .int (oldKeyCount + 1)), (lit "oldPid", .int h.oldPid),
    (lit "newPid", .int 0), (lit "gatewayHttpStatus", .int 0), (lit "inotifyWatches", .int 0),
    (lit "backup", .str (lit "/etc/cliproxy/backups/config.yaml.before-cloudx-" ++ h.transactionId)),
    (lit "previousCredentialRetained", .bool true), (lit "previousCredentialRevoked", .bool false)]

/-- The snapshots and the checks, before anything is written. -/
def examine : Program Prepared := do
  step fails .accounts .value (pure ())
  let credentialBefore ← safeSnapshot fails (.before .credential) .credential
    "Cloudx client credential" maxCredentialBytes
  let environmentBefore ← safeSnapshot fails (.before .environment) .environment
    "Cloudx shadow environment" maxConfigBytes
  let configBefore ← safeSnapshot fails (.before .config) .config "gateway config" maxConfigBytes
  ensure (credentialBefore.mode % 64 = 0) "Cloudx client credential permissions are too broad"
  let text ← pureCheck (match decodeUtf8 credentialBefore.data with
    | some text => .ok text
    | none => .error (runtimeError "Cloudx client credential is invalid"))
  let oldKey := strip text
  let existingKeys ← pureCheck (apiKeys py configBefore.data)
  ensure (oldKey ≠ [] ∧ existingKeys.count oldKey = 1)
    "Cloudx client credential is not unique in gateway config"
  attempt fails .oldPid
  let host ← pureCheck (topLevelValue configBefore.data "host")
  let portText ← pureCheck (topLevelValue configBefore.data "port")
  let port ← pureCheck (match h.int portText with | some n => .ok n | none => .error .value)
  let (configAfter, oldKeyCount) ← pureCheck (appendApiKey configBefore.data h.key)
  let keysAfter ← pureCheck (apiKeys py configAfter)
  ensure (keysAfter = existingKeys ++ [h.key]) "gateway key append changed an unrelated entry"
  return ⟨configBefore, credentialBefore, environmentBefore, oldKey, host, port, configAfter,
    oldKeyCount, preparedManifest py h configBefore.data configAfter oldKey oldKeyCount⟩

/-- `_prepare_rotation_directory` -/
def prepareDirectory : Program Unit := do
  attempt fails .rotationRoot
  attempt fails .makeTransaction
  modify fun d => { d with transaction := some none }
  attempt fails .chownTransaction

/-- The backup and the manifest. -/
def writeBackup (p : Prepared) : Program Unit := do
  attempt fails .backupRoot
  attempt fails .backupExists
  let d ← Act.get
  ensure d.backup.isNone "gateway rotation backup already exists"
  atomicWrite fails .writeBackup fun d => { d with backup := some p.configBefore.data }
  atomicWrite fails .prepareManifest fun d => { d with transaction := some (some p.manifest) }

/-- Everything before the gateway is touched. -/
def prepare : Program Prepared := do
  let p ← examine fails py h
  prepareDirectory fails
  (writeBackup fails p).except fun _ => do
    attempt fails .unlinkPrepared
    modify fun d => { d with backup := none, transaction := none }
    raise (runtimeError "scoped key rotation preparation failed before gateway mutation")
  return p

/-! ### Rotation and recovery -/

/-- The new credential file. -/
def credentialAfter : Bytes := utf8 (h.key ++ lit "\n")

/-- The three files are as they were written. -/
def observeAll (p : Prepared) : Program Unit := do
  let config ← safeSnapshot fails (.observe .config) .config "gateway config" maxConfigBytes
  let credential ← safeSnapshot fails (.observe .credential) .credential
    "Cloudx client credential" maxCredentialBytes
  let environment ← safeSnapshot fails (.observe .environment) .environment
    "Cloudx shadow environment" maxConfigBytes
  ensure (config.data = p.configAfter) "gateway config changed during scoped key rotation"
  ensure (credential.data = credentialAfter h)
    "Cloudx client credential changed during scoped key rotation"
  ensure (environment.data = environmentDocument h p.host p.port)
    "Cloudx shadow environment changed during scoped key rotation"

/-- The manifest of a rotation that was made. -/
def rotatedManifest (p : Prepared) : Dict :=
  Python.Value.set (Python.Value.set (Python.Value.set (Python.Value.set p.manifest
    (lit "status") (.str (lit "rotated"))) (lit "newPid") (.int h.newPid))
    (lit "gatewayHttpStatus") (.int 200)) (lit "inotifyWatches") (.int h.watches)

/-- What follows the write of the config. -/
def rotateRest (p : Prepared) : Program Unit := do
  atomicWrite fails (.write .credential) fun d =>
    d.put (.file (credentialAfter h) 0o600 h.cloudxUid h.cloudxGid) .credential
  atomicWrite fails (.write .environment) fun d =>
    d.put (.file (environmentDocument h p.host p.port) 0o640 0 h.cloudxGid) .environment
  attempt fails .restart
  attempt fails .waitActive
  attempt fails .probe
  attempt fails .watches
  ensure (2 ≤ h.watches) "gateway config and auth watches were not restored"
  observeAll fails h p
  atomicWrite fails .finalManifest fun d =>
    { d with transaction := some (some (rotatedManifest h p)) }

/-- The write of the new config. -/
def writeConfig (p : Prepared) : Program Unit :=
  atomicWrite fails (.write .config) fun d => d.put
    (.file p.configAfter p.configBefore.mode p.configBefore.uid p.configBefore.gid) .config

/-- The body of the rotation. -/
def rotate (p : Prepared) : Program Unit := do
  writeConfig fails p
  rotateRest fails h p

/-- A file is the one of the snapshot again. -/
def verifyTarget (target : Target) (label : String) (maximum : ℕ) (value : Snapshot) :
    Program Unit := do
  let observed ← safeSnapshot fails (.verify target) target label maximum
  ensure (observed = value) (label ++ " was not restored exactly")

/-- What follows the restoring of the config. -/
def recoverRest (p : Prepared) : Program Unit := do
  restore fails .credential p.credentialBefore
  restore fails .environment p.environmentBefore
  attempt fails .restoreRestart
  attempt fails .restoreActive
  attempt fails .restoreProbe
  attempt fails .restoreStatus
  verifyTarget fails .config "gateway config" maxConfigBytes p.configBefore
  verifyTarget fails .credential "Cloudx client credential" maxCredentialBytes p.credentialBefore
  verifyTarget fails .environment "Cloudx shadow environment" maxConfigBytes p.environmentBefore

/-- The body of the recovery. -/
def recover (p : Prepared) : Program Unit := do
  restore fails .config p.configBefore
  recoverRest fails p

/-- The removal of the backup and the transaction directory, of which the latter ignores errors. -/
def cleanup : Program Unit := do
  attempt fails .unlinkBackup
  modify fun d => { d with backup := none, transaction := none }

/-- A program whose exception is kept for later. -/
def captured (x : Program Unit) : Program Bool :=
  (do x; return true).except fun _ => pure false

/-- The handler of a failed rotation. -/
def rollBack (p : Prepared) : Program Unit := do
  let recovered ← captured (recover fails p)
  let cleaned ← captured (cleanup fails)
  if recovered && cleaned then
    raise (runtimeError "scoped key installation failed and was rolled back")
  else raise (runtimeError "scoped key installation failed and rollback verification is incomplete")

/-- `_apply` -/
def apply : Program Unit := do
  let p ← prepare fails py h
  (rotate fails h p).except fun _ => rollBack fails p

end

end Cloudx.Scripts.KeyRotation
