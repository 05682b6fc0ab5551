import Cloudx.Python.Value
import Mathlib.Data.List.Lex

/-! # The release root of the cloud

`release.py` keeps the staged releases in directories named by their versions, and two symbolic
links, `current` and `previous`, that select among them. A bundle is staged, a staged release is
activated, and an activation is rolled back.

A symbolic link is what it resolves to: a directory below `releases`, or a path elsewhere. The
version that is given to `activate` is joined to the path of `releases`, so it may be any relative or
absolute path, and where that leads depends on the rest of the file system (`Host.place`). -/

namespace Cloudx.Cloud.ReleaseRoot

open Cloudx.Python.Text Cloudx.Python.Value

/-! ### Versions -/

/-- `[0-9]` -/
def isDigit (c : ℕ) : Bool := 48 ≤ c && c ≤ 57

/-- Three nonempty groups of digits with dots between them. -/
def isVersion (v : Str) : Bool :=
  (v.splitOn 46).length = 3 && (v.splitOn 46).all fun part => part ≠ [] && part.all isDigit

/-- `VERSION_RE.match(value)`: the dollar sign also matches before a line feed at the end. -/
def versionMatches (v : Str) : Bool :=
  isVersion v || (v.getLast? = some 10 && isVersion v.dropLast)

/-- The digits `int` takes at most, `sys.int_info.default_max_str_digits`. -/
def maxStrDigits : ℕ := 4300

/-- `int(part)` of a group of digits. -/
def intOf (part : Str) : Except PyError ℕ :=
  let digits := part.filter isDigit
  if maxStrDigits < digits.length then .error .value
  else .ok (digits.foldl (fun n c => 10 * n + (c - 48)) 0)

/-- `_version_tuple` -/
def versionTuple (v : Str) : Except PyError (List ℕ) :=
  if versionMatches v then (v.splitOn 46).mapM intOf
  else .error (.rejected "invalid release version")

/-- `if _version_tuple(version) < _version_tuple(present): raise RuntimeError(message)` -/
def refuseDowngrade (version present : Str) (message : String) : Except PyError Unit :=
  match versionTuple version, versionTuple present with
  | .error e, _ => .error e
  | .ok _, .error e => .error e
  | .ok wanted, .ok limit => if wanted < limit then .error (.rejected message) else .ok ()

/-! ### The release root -/

/-- A release directory: the contents of its files, where they are regular files. -/
structure Release where
  artifact : Option Bytes
  manifest : Option Bytes
  signature : Option Bytes
  signers : Option Bytes
deriving DecidableEq

/-- What a link resolves to. -/
inductive Place where
  | staged (name : Str)
  | elsewhere (path : Str)
deriving DecidableEq

/-- The path's last component. -/
def Place.name : Place → Str
  | .staged name => name
  | .elsewhere path => pathName path

/-- What there is at the path of a selector. -/
inductive Selector where
  | absent
  | file
  | directory
  | link (place : Place)
deriving DecidableEq

/-- The release root. -/
structure Root where
  releases : List (Str × Release)
  current : Selector
  previous : Selector
deriving DecidableEq

/-- The directories below `releases`. -/
def Root.names (s : Root) : List Str := s.releases.map Prod.fst

/-- An empty release root. -/
def emptyRoot : Root := ⟨[], .absent, .absent⟩

/-- The host the release root is on: its signature check and its way to run an artifact, the trusted
signers, and the file system around the root. -/
structure Host where
  /-- `_verify_signature(manifest, signature)` -/
  verifies : Bytes → Bytes → Bool
  /-- `_verify_artifact_self_check(artifact, version, protocol)` -/
  selfCheck : Bytes → Str → Json → Bool
  /-- `validate_public_document(manifest, "cloudx.release-manifest.v1")` -/
  isPublic : Dict → Bool
  /-- `_allowed_signers()` -/
  allowedSigners : Bytes
  /-- `os.getpid()` -/
  pid : ℕ
  /-- What `root / "releases" / version` resolves to, for the staged names. -/
  place : List Str → Str → Place
  /-- `(path / "cloudx-cloud.pyz").is_file()` -/
  holdsArtifact : Str → Bool
  /-- The order in which `iterdir` lists the directories below `releases`. -/
  iterdir : List (Str × Release) → List (Str × Release)
  place_name : ∀ names version, ValidName version → place names version = .staged version
  iterdir_perm : ∀ releases, (iterdir releases).Perm releases

/-- Whether the artifact is there. -/
def Root.complete (s : Root) (host : Host) : Place → Bool
  | .staged name => ((s.releases.lookup name).bind Release.artifact).isSome
  | .elsewhere path => host.holdsArtifact path

/-! ### The selectors -/

/-- `_atomic_link`: a link cannot replace a directory. -/
def atomicLink (old : Selector) (target : Place) : Except PyError Selector :=
  if old = .directory then .error .os else .ok (.link target)

/-- `_release_link_version` -/
def releaseLinkVersion (s : Root) : Selector → Except PyError (Option Str)
  | .absent => .ok none
  | .file | .directory => .error (.rejected "cloud release is not a symlink")
  | .link (.elsewhere _) => .error (.rejected "cloud release points outside the release root")
  | .link (.staged version) => do
    let _ ← versionTuple version
    if ((s.releases.lookup version).bind Release.artifact).isSome then return some version
    else throw (.rejected "cloud release target is incomplete")

/-- One directory in the loop of `_latest_staged_before`, with the best candidate so far. -/
def latestStep (version : Str) (best : Option (List ℕ × Str)) (entry : Str × Release) :
    Except PyError (Option (List ℕ × Str)) :=
  if entry.2.artifact.isNone then .ok best
  else match versionTuple entry.1 with
    | .error (.rejected _) => .ok best
    | .error e => .error e
    | .ok parsed => do
      let limit ← versionTuple version
      if parsed < limit then
        match best with
        | none => return some (parsed, entry.1)
        | some (highest, name) =>
          return if highest < parsed then some (parsed, entry.1) else some (highest, name)
      else return best

/-- `_latest_staged_before` -/
def latestStagedBefore (host : Host) (s : Root) (version : Str) :
    Except PyError (Option Str) := do
  let best ← (host.iterdir s.releases).foldlM (latestStep version) none
  return best.map Prod.snd

/-- What `status` reports. -/
structure Status where
  currentVersion : Option Str
  previousVersion : Option Str
  currentArtifactSha256 : Option Str
deriving DecidableEq

/-- `status` -/
def status (py : Py) (s : Root) : Except PyError Status := do
  let current ← releaseLinkVersion s s.current
  let previous ← releaseLinkVersion s s.previous
  let artifact := current.bind fun version => (s.releases.lookup version).bind Release.artifact
  return ⟨current, previous, artifact.map py.sha256⟩

/-- What `activate` and `rollback` report. -/
structure Switched where
  version : Str
  previousVersion : Option Str
deriving DecidableEq

/-- The report at the end of both: `observed = status()`. -/
def switched (py : Py) (s : Root) (version : Str) : Except PyError Switched := do
  let observed ← status py s
  return ⟨version, observed.previousVersion⟩

/-- The selector `previous` after `current` has been linked to `version`. Two versions are the same
path only if they are the same, as `version` was checked when there was a current version. -/
def previousAfter (host : Host) (s : Root) (currentVersion : Option Str) (version : Str) :
    Except PyError Selector :=
  match currentVersion.filter (· ≠ version) with
  | some old => atomicLink s.previous (.staged old)
  | none =>
    match s.previous with
    | .link _ => .ok s.previous
    | previous => do
      match ← latestStagedBefore host s version with
      | none => return previous
      | some fallback => atomicLink previous (.staged fallback)

/-- The check of `activate` that the version is not below that of `current`. -/
def refuseOlder (version : Str) : Option Str → Except PyError Unit
  | none => .ok ()
  | some present =>
    refuseDowngrade version present "release activation would be a downgrade; use rollback"

/-- The checks of `activate` before it links, and the version of `current`. -/
def activateChecks (host : Host) (s : Root) (version confirmation : Str) :
    Except PyError (Option Str) :=
  if confirmation ≠ version then
    .error (.rejected "release activation confirmation does not match the version")
  else match releaseLinkVersion s s.current with
    | .error e => .error e
    | .ok currentVersion =>
      match refuseOlder version currentVersion with
      | .error e => .error e
      | .ok _ =>
        if s.complete host (host.place s.names version) then .ok currentVersion
        else .error (.rejected "cloud release is not staged")

/-- `activate`. An exception after the first link leaves that link behind. -/
def activate (py : Py) (host : Host) (s : Root) (version confirmation : Str) :
    Root × Except PyError Switched :=
  match activateChecks host s version confirmation with
  | .error e => (s, .error e)
  | .ok currentVersion =>
    match atomicLink s.current (host.place s.names version) with
    | .error e => (s, .error e)
    | .ok current =>
      let linked := { s with current := current }
      match previousAfter host linked currentVersion version with
      | .error e => (linked, .error e)
      | .ok previous =>
        let done := { linked with previous := previous }
        (done, switched py done version)

/-- The checks of `rollback` before it links: the versions of `previous` and `current`. -/
def rollbackChecks (s : Root) (confirmation : Str) : Except PyError (Str × Option Str) :=
  match releaseLinkVersion s s.previous with
  | .error e => .error e
  | .ok none => .error (.rejected "no previous cloud release is available")
  | .ok (some version) =>
    if confirmation ≠ version then
      .error (.rejected "rollback confirmation does not match the previous version")
    else match releaseLinkVersion s s.current with
      | .error e => .error e
      | .ok currentVersion => .ok (version, currentVersion)

/-- `rollback` -/
def rollback (py : Py) (s : Root) (confirmation : Str) : Root × Except PyError Switched :=
  match rollbackChecks s confirmation with
  | .error e => (s, .error e)
  | .ok (version, currentVersion) =>
    match atomicLink s.current (.staged version) with
    | .error e => (s, .error e)
    | .ok current =>
      let linked := { s with current := current }
      match currentVersion.filter (· ≠ version) with
      | none => (linked, switched py linked version)
      | some old =>
        match atomicLink s.previous (.staged old) with
        | .error e => (linked, .error e)
        | .ok previous =>
          let done := { linked with previous := previous }
          (done, switched py done version)

/-! ### Staging -/

/-- A `manifest.json` of an extracted bundle: its bytes, the signature beside it, and the files that
can be reached from its directory. -/
structure ManifestFile where
  bytes : Bytes
  signature : Option Bytes
  fileAt : Str → Option Bytes

/-- What `_release_files` returns. -/
structure Verified where
  manifestBytes : Bytes
  signature : Bytes
  artifact : Bytes
  manifest : Dict
  version : Str

/-- The records of `artifacts` for the cloud. -/
def cloudRecords (manifest : Dict) : List Dict :=
  match get manifest (lit "artifacts") with
  | .arr items => items.filterMap fun
    | .obj d => if get d (lit "component") = .str (lit "cloud") then some d else none
    | _ => none
  | _ => []

/-- `n == value` -/
def isNumber (n : ℕ) : Json → Bool
  | .int m => m = n
  | .float x => x = .finite n
  | .bool b => b.toNat = n
  | _ => false

/-- The checks of the manifest, and its version. -/
def manifestVersion (host : Host) (manifest : Dict) : Except PyError Str :=
  if get manifest (lit "schema") ≠ .str (lit "cloudx.release-manifest.v1") then
    .error (.rejected "release manifest schema is unsupported")
  else if !host.isPublic manifest then .error (.rejected "release manifest is not public")
  else match get manifest (lit "version") with
    | .str version =>
      if get manifest (lit "product") ≠ .str (lit "cloudx") then
        .error (.rejected "release manifest product or version is invalid")
      else if get (asDict (get manifest (lit "activation"))) (lit "automatic") ≠ .bool false then
        .error (.rejected "release manifest permits automatic activation")
      else .ok version
    | _ => .error (.rejected "release manifest product or version is invalid")

/-- The artifact that the manifest names. -/
def cloudArtifact (py : Py) (file : ManifestFile) (manifest : Dict) : Except PyError Bytes :=
  match cloudRecords manifest with
  | [artifactRecord] =>
    match file.fileAt (py.str (pyOrs [get artifactRecord (lit "name")])) with
    | none => .error (.rejected "cloud release artifact is missing")
    | some artifact =>
      if isNumber artifact.length (get artifactRecord (lit "size")) ∧
          get artifactRecord (lit "sha256") = .str (py.sha256 artifact) then
        .ok artifact
      else .error (.rejected "cloud release artifact hash does not match the manifest")
  | _ => .error (.rejected "release manifest must contain one cloud artifact")

/-- `_release_files` on the manifests of the extracted bundle. -/
def releaseFiles (py : Py) (host : Host) (manifests : List ManifestFile) :
    Except PyError Verified :=
  match manifests with
  | [file] =>
    match file.signature with
    | none => .error (.rejected "release signature is missing")
    | some signature =>
      if !host.verifies file.bytes signature then
        .error (.rejected "release signature verification failed")
      else match py.loads file.bytes with
        | .raised e => .error e
        | .unicodeError => .error .value
        | .value (.obj manifest) => do
          let version ← manifestVersion host manifest
          let artifact ← cloudArtifact py file manifest
          return ⟨file.bytes, signature, artifact, manifest, version⟩
        | _ => .error (.rejected "release manifest is invalid")
  | _ => .error (.rejected "release bundle must contain exactly one manifest")

/-- The pinned identity of a compatibility release. -/
structure Pinned where
  version : Str
  sourceCommit : Str
  manifestSha256 : Str
deriving DecidableEq

/-- The checks of a pinned identity. -/
def pinnedChecks (py : Py) (pinned : Pinned) (files : Verified) : Except PyError Unit := do
  if pinned.version = [] ∨ pinned.sourceCommit = [] ∨ pinned.manifestSha256 = [] then
    throw (.rejected "pinned compatibility identity is incomplete")
  if files.version ≠ pinned.version then
    throw (.rejected "compatibility release version does not match the pinned identity")
  if get files.manifest (lit "sourceCommit") ≠ .str pinned.sourceCommit then
    throw (.rejected "compatibility release source does not match the pinned identity")
  if py.sha256 files.manifestBytes ≠ pinned.manifestSha256 then
    throw (.rejected "compatibility release manifest does not match the pinned identity")

/-- The check that a stage is no downgrade. -/
def downgradeCheck (s : Root) (version : Str) : Except PyError Unit :=
  match s.current with
  | .link place => refuseDowngrade version place.name
      "staging a downgrade is not allowed; use rollback"
  | _ => .ok ()

/-- The checks of a release that is already staged. -/
def existingChecks (py : Py) (host : Host) (pinned : Option Pinned) (files : Verified)
    (existing : Release) : Except PyError Unit :=
  match existing.artifact with
  | none => .error (.rejected "a different release is already staged at this version")
  | some artifact => do
    if py.sha256 artifact ≠ py.sha256 files.artifact then
      throw (.rejected "a different release is already staged at this version")
    match pinned with
    | none => return ()
    | some pinned =>
      match existing.manifest, existing.signature, existing.signers with
      | some manifest, some signature, some signers =>
        if py.sha256 manifest ≠ pinned.manifestSha256 then
          throw (.rejected "the staged compatibility manifest does not match the pinned identity")
        if signers ≠ host.allowedSigners then
          throw (.rejected "the staged compatibility signer root is inconsistent")
        if !host.verifies manifest signature then
          throw (.rejected "release signature verification failed")
        if !host.selfCheck artifact files.version (get files.manifest (lit "protocol")) then
          throw (.rejected "staged cloud artifact failed its self-check")
      | _, _, _ => throw (.rejected "the staged compatibility release is incomplete")

/-- The longest name a file system takes, `NAME_MAX`. -/
def nameMax : ℕ := 255

/-- What `_stage_verified_release` reports. -/
structure Staged where
  version : Str
  status : Str
  manifestSha256 : Str
  artifactSha256 : Str
deriving DecidableEq

/-- `_stage_verified_release`, where the version of a signed manifest is a plain name. The release is
made in a temporary directory beside the others, whose name the file system must take. -/
def stageVerifiedRelease (py : Py) (host : Host) (s : Root) (pinned : Option Pinned)
    (manifests : List ManifestFile) : Root × Except PyError Staged :=
  match releaseFiles py host manifests with
  | .error e => (s, .error e)
  | .ok files =>
    let report := fun status : String =>
      (⟨files.version, lit status, py.sha256 files.manifestBytes, py.sha256 files.artifact⟩ : Staged)
    let checks := match pinned with
      | some identity => pinnedChecks py identity files
      | none => downgradeCheck s files.version
    match checks with
    | .error e => (s, .error e)
    | .ok _ =>
      match s.releases.lookup files.version with
      | some existing =>
        match existingChecks py host pinned files existing with
        | .error e => (s, .error e)
        | .ok _ => (s, .ok (report "already-staged"))
      | none =>
        let temporary := lit ".stage-" ++ files.version ++ 45 :: decimal host.pid
        if nameMax < temporary.length then (s, .error .os)
        else if !host.selfCheck files.artifact files.version
            (get files.manifest (lit "protocol")) then
          (s, .error (.rejected "staged cloud artifact failed its self-check"))
        else
          let release : Release := ⟨some files.artifact, some files.manifestBytes,
            some files.signature, some host.allowedSigners⟩
          ({ s with releases := (files.version, release) :: s.releases }, .ok (report "staged"))

/-- A bundle: what `_extract` makes of it. -/
abbrev Bundle := Except PyError (List ManifestFile)

/-- `stage` -/
def stage (py : Py) (host : Host) (s : Root) (bundle : Bundle) : Root × Except PyError Staged :=
  match bundle with
  | .error e => (s, .error e)
  | .ok manifests => stageVerifiedRelease py host s none manifests

/-- `[a-f0-9]{n}` -/
def isHex (n : ℕ) (s : Str) : Bool :=
  s.length = n && s.all fun c => isDigit c || (97 ≤ c && c ≤ 102)

/-- `stage_pinned_compatibility` -/
def stagePinnedCompatibility (py : Py) (host : Host) (s : Root) (bundle : Bundle)
    (pinned : Pinned) : Root × Except PyError Staged :=
  match versionTuple pinned.version with
  | .error e => (s, .error e)
  | .ok _ =>
    if !isHex 40 pinned.sourceCommit then
      (s, .error (.rejected "invalid pinned compatibility source commit"))
    else if !isHex 64 pinned.manifestSha256 then
      (s, .error (.rejected "invalid pinned compatibility manifest digest"))
    else match bundle with
      | .error e => (s, .error e)
      | .ok manifests => stageVerifiedRelease py host s (some pinned) manifests

end Cloudx.Cloud.ReleaseRoot
