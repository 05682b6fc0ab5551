import Cloudx.Cloud.ReleaseFaults
import Cloudx.Lib.Checks

/-! # The local updater

`updater.py` keeps local releases and the two links that select among them as `release.py` does on the
cloud, and links three launchers to the current release. `upgrade.py` stages the signed stable
release, activates it, and after a failed activation calls the ordinary rollback.

The accesses of `apply` to the file system are steps that can fail; those of the recovery are not. -/

namespace Cloudx.Local.Updater

open Cloudx.Python.Text Cloudx.Python.Value
open Cloudx.Lib.Checks (require)
open Cloudx.Cloud.ReleaseRoot (Place Selector atomicLink)
open Cloudx.Cloud.ReleaseFaults (LinkStep ScanStep linkWith)

/-! ### The local root -/

/-- `VERSION` -/
def runningVersion : Str := lit "0.1.33"

/-- `_version_tuple`: a `v` may come first. -/
def versionTuple (value : Str) : Except PyError (List ℕ) :=
  Cloud.ReleaseRoot.versionTuple (if value.head? = some 118 then value.tail else value)

/-- `if _version_tuple(version) < _version_tuple(present): raise RuntimeError(message)` -/
def refuseDowngrade (version present : Str) (message : String) : Except PyError Unit := do
  let wanted ← versionTuple version
  let limit ← versionTuple present
  require (¬ wanted < limit) (.rejected message)

/-- The directories below `releases`, each with whether its `cloudx-local.pyz` is a regular file, and
the two selectors. -/
structure Root where
  releases : List (Str × Bool)
  current : Selector
  previous : Selector
deriving DecidableEq

/-- The file system around the root. -/
structure Disk where
  /-- `path.exists()` of a path that is not below `releases` -/
  holds : Str → Bool
  /-- The order in which `iterdir` lists the directories below `releases`. -/
  iterdir : List (Str × Bool) → List (Str × Bool)
  iterdir_perm : ∀ releases, (iterdir releases).Perm releases

/-- `(releases / version / "cloudx-local.pyz").is_file()` -/
def Root.isStaged (s : Root) (version : Str) : Bool := (s.releases.lookup version).getD false

/-- Whether there is something at the place. -/
def Root.present (s : Root) (disk : Disk) : Place → Bool
  | .staged name => (s.releases.lookup name).isSome
  | .elsewhere path => disk.holds path

/-- `link.resolve() if link.is_symlink() else None` -/
def resolved : Selector → Option Place
  | .link place => some place
  | _ => none

/-- `(root / "current").resolve(strict=True).name` -/
def currentName (disk : Disk) (s : Root) : Except PyError Str :=
  match s.current with
  | .absent => .error .os
  | .file | .directory => .ok (lit "current")
  | .link place => if s.present disk place then .ok place.name else .error .os

/-! ### Activation -/

/-- The accesses of `apply` to the file system, and the reading and installing of the shell hook. -/
inductive Step where
  | downgradeIsSymlink
  | downgradeResolve
  | artifactIsFile
  | readHook
  | stagedIsFile
  | currentIsSymlink
  | currentResolve
  | destinationResolve
  | linkCurrent (step : LinkStep)
  | previousIsSymlink
  | scan (step : ScanStep)
  | linkPrevious (step : LinkStep)
  | mkdirBin
  | linkLauncher (name : Str) (step : LinkStep)
  | reportIsSymlink
  | reportResolve
  | installHook
deriving DecidableEq

/-- `("codexx", "cloud", "cloudx-update")` -/
def launchers : List Str := [lit "codexx", lit "cloud", lit "cloudx-update"]

section

variable (fails : Step → Bool) (disk : Disk) (s : Root)

/-- An access that fails raises `OSError`. -/
def access (step : Step) : Except PyError Unit := if fails step then .error .os else .ok ()

/-- An access that is only made to a link. -/
def accessLink (selector : Selector) (step : Step) : Except PyError Unit :=
  if (resolved selector).isSome then access fails step else .ok ()

/-- One directory in the loop of `_latest_staged_before`. -/
def latestStep (version : Str) (best : Option (List ℕ × Str)) (entry : Str × Bool) :
    Except PyError (Option (List ℕ × Str)) := do
  access fails (.scan (.entryIsDir entry.1))
  access fails (.scan (.entryIsFile entry.1))
  if entry.2 = false then return best
  match versionTuple entry.1 with
  | .error (.rejected _) => return best
  | .error e => throw e
  | .ok parsed =>
    let limit ← versionTuple version
    if parsed < limit then
      match best with
      | none => return some (parsed, entry.1)
      | some (highest, name) =>
        return if highest < parsed then some (parsed, entry.1) else some (highest, name)
    else return best

/-- `_latest_staged_before` -/
def latestStagedBefore (version : Str) : Except PyError (Option Str) := do
  access fails (.scan .isDir)
  access fails (.scan .iterdir)
  let best ← (disk.iterdir s.releases).foldlM (latestStep fails version) none
  return best.map Prod.snd

/-- The check of `apply` that the version is not below that of `current`. -/
def refuseOlder (version : Str) : Except PyError Unit :=
  match resolved s.current with
  | some place =>
    refuseDowngrade version place.name "release activation would be a downgrade; use rollback"
  | none => .ok ()

/-- The checks of `apply` and the reads of `_activate_local` before it links: what `current` resolves
to. -/
def applyChecks (version confirmation : Str) : Except PyError (Option Place) := do
  require (confirmation = version)
    (.rejected "release activation confirmation does not match the version")
  access fails .downgradeIsSymlink
  accessLink fails s.current .downgradeResolve
  refuseOlder s version
  access fails .artifactIsFile
  require (s.isStaged version) (.rejected "local release is not staged")
  access fails .readHook
  access fails .stagedIsFile
  access fails .currentIsSymlink
  accessLink fails s.current .currentResolve
  access fails .destinationResolve
  return resolved s.current

/-- The new selector `previous` of `_activate_local`. -/
def nextPrevious (oldTarget : Option Place) (version : Str) : Except PyError Selector :=
  match oldTarget.filter (· ≠ .staged version) with
  | some old => linkWith (fun step => fails (.linkPrevious step)) s.previous old
  | none =>
    if fails .previousIsSymlink then .error .os
    else match s.previous with
      | .link _ => .ok s.previous
      | previous => do
        match ← latestStagedBefore fails disk s version with
        | none => return previous
        | some fallback =>
          linkWith (fun step => fails (.linkPrevious step)) previous (.staged fallback)

/-- `_atomic_link` of a launcher to the artifact of `current`. -/
def linkLauncher (name : Str) : Except PyError Unit := do
  access fails (.linkLauncher name .mkdir)
  access fails (.linkLauncher name .unlink)
  access fails (.linkLauncher name .symlink)
  access fails (.linkLauncher name .replace)

/-- The rest of `_activate_local` and `apply`: the launchers, the version reported for `previous`, and
the shell hook. -/
def finish : Except PyError (Option Str) := do
  access fails .mkdirBin
  launchers.forM (linkLauncher fails)
  access fails .reportIsSymlink
  accessLink fails s.previous .reportResolve
  access fails .installHook
  return (resolved s.previous).map Place.name

/-- `apply` with `local_only`, `shell_hook` and no account to seed. -/
def apply (version confirmation : Str) : Root × Except PyError (Option Str) :=
  match applyChecks fails s version confirmation with
  | .error e => (s, .error e)
  | .ok oldTarget =>
    match linkWith (fun step => fails (.linkCurrent step)) s.current (.staged version) with
    | .error e => (s, .error e)
    | .ok current =>
      let linked := { s with current := current }
      match nextPrevious fails disk linked oldTarget version with
      | .error e => (linked, .error e)
      | .ok previous =>
        let done := { linked with previous := previous }
        (done, finish fails done)

/-! ### Rollback and staging -/

/-- `_rollback_local` -/
def rollback (version : Str) : Root × Except PyError Unit :=
  match (resolved s.previous).filter (·.name = version) with
  | none =>
    (s, .error (.rejected "requested local rollback version is not the previous release"))
  | some target =>
    match atomicLink s.current target with
    | .error e => (s, .error e)
    | .ok current =>
      let linked := { s with current := current }
      match (resolved s.current).filter (· ≠ target) with
      | none => (linked, .ok ())
      | some oldCurrent =>
        match atomicLink s.previous oldCurrent with
        | .error e => (linked, .error e)
        | .ok previous => ({ linked with previous := previous }, .ok ())

/-- `stage` with `local_only`, where `verified` is what its checks of the release, of the artifact
and of the copies do. -/
def stage (verified : Except PyError Unit) (version : Str) : Root × Except PyError Str :=
  match verified with
  | .error e => (s, .error e)
  | .ok _ =>
    match s.releases.lookup version with
    | some true => (s, .ok (lit "already-staged"))
    | some false =>
      (s, .error (.rejected "a different local release is already staged at this version"))
    | none => ({ s with releases := (version, true) :: s.releases }, .ok (lit "staged"))

/-! ### The upgrade -/

/-- What `upgrade_endpoint` reports of the local endpoint. -/
structure Upgraded where
  status : Str
  currentBefore : Str
  available : Str
  currentAfter : Str
  stageStatus : Option Str
deriving DecidableEq

/-- `_local_current` -/
def localCurrent : Except PyError Str :=
  match s.current with
  | .link place =>
    if s.present disk place = false then
      .error (.rejected "active local Cloudx release is unavailable")
    else if place.name = runningVersion then .ok place.name
    else .error (.rejected "running Cloudx version does not match the active local selector")
  | _ => .error (.rejected "active local Cloudx release selector is unavailable")

/-- `"local upgrade failed; rollback verification also failed"` -/
def alsoFailed : PyError := .rejected "local upgrade failed; rollback verification also failed"

/-- `"local upgrade failed and restored the prior release"` -/
def restoredPrior : PyError := .rejected "local upgrade failed and restored the prior release"

/-- The check at the end of the recovery, which always raises. -/
def verifyRestored (current : Str) : PyError :=
  match currentName disk s with
  | .error _ => alsoFailed
  | .ok restored =>
    if restored ≠ current then
      .rejected "local upgrade failed; rollback did not restore the prior release"
    else restoredPrior

/-- The recovery from a failed activation. -/
def recover (available current : Str) : Root × PyError :=
  match currentName disk s with
  | .error _ => (s, alsoFailed)
  | .ok selected =>
    if selected = available then
      match rollback s current with
      | (s', .error _) => (s', alsoFailed)
      | (s', .ok _) => (s', verifyRestored disk s' current)
    else if selected ≠ current then (s, alsoFailed)
    else (s, verifyRestored disk s current)

/-- The activation with its check, and the recovery when one of them raises. -/
def activateOrRecover (available current stageStatus : Str) : Root × Except PyError Upgraded :=
  match apply fails disk s available available with
  | (s', .error _) => ((recover disk s' available current).1,
      .error (recover disk s' available current).2)
  | (s', .ok _) =>
    match currentName disk s' with
    | .error _ => ((recover disk s' available current).1,
        .error (recover disk s' available current).2)
    | .ok after =>
      if after ≠ available then ((recover disk s' available current).1,
        .error (recover disk s' available current).2)
      else (s', .ok ⟨lit "upgraded", current, available, after, some stageStatus⟩)

/-- The version checks of `upgrade_endpoint`: whether the available release is newer than the current
one. -/
def upgradeChecks (available : Str) : Except PyError (Str × Bool) := do
  let current ← localCurrent disk s
  let offered ← versionTuple available
  let active ← versionTuple current
  require (¬ offered < active)
    (.rejected "signed stable release would downgrade the selected endpoint")
  return (current, decide (offered ≠ active))

/-- `upgrade_endpoint` on the local endpoint, for the version of the signed index. -/
def upgradeEndpoint (available : Str) (checkOnly : Bool) (verified : Except PyError Unit) :
    Root × Except PyError Upgraded :=
  match upgradeChecks disk s available with
  | .error e => (s, .error e)
  | .ok (current, newer) =>
    if newer = false then (s, .ok ⟨lit "up-to-date", current, available, current, none⟩)
    else if checkOnly then
      (s, .ok ⟨lit "update-available", current, available, current, none⟩)
    else match stage s verified available with
      | (s', .error e) => (s', .error e)
      | (s', .ok stageStatus) => activateOrRecover fails disk s' available current stageStatus

end

end Cloudx.Local.Updater
