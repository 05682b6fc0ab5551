import Cloudx.Lib.Fresh
import Cloudx.Lib.Fault
import Cloudx.Cloud.Disk

/-! # The cloud credential quarantine

`quarantine_auth_record` moves one credential file from the auth tree into the archive directory and
appends an entry to `manifest.json`; `restore_quarantined_auth` moves one back. Both hold the
quarantine lock.

Every file-system step of a call is marked, and a fault plan says which of them fail, as for the
local archive. -/

namespace Cloudx.Cloud.Quarantine

open Cloudx.Lib.Store Cloudx.Lib.Fresh Cloudx.Lib.Fault
open Cloudx.Python.Text Cloudx.Python.Value Cloudx.Python.Dump Cloudx.Cloud.Disk

/-! ### Configuration and names -/

/-- `auth_dir` and `quarantine_dir`: two directories, neither inside the other. -/
structure Config where
  authDir : Path
  archiveDir : Path
  apart : ¬ authDir <+: archiveDir ∧ ¬ archiveDir <+: authDir

/-- `"manifest.json"` -/
def manifestName : FileName := ⟨lit "manifest.json", validName_manifest⟩

/-- `".quarantine.lock"` -/
def lockName : FileName := ⟨lit ".quarantine.lock", by decide⟩

/-- `MANIFEST_SCHEMA` -/
def manifestSchema : Str := lit "cloudx.cpa-quarantine.v1"

/-- `MAX_MANIFEST_BYTES` -/
def maxManifestBytes : ℕ := 1024 * 1024

variable (cfg : Config)

/-- `archive_dir / name` -/
def Config.inArchive (name : FileName) : Path := cfg.archiveDir ++ [name]

/-! ### Checks -/

/-- `_ensure_real_directory(path)` -/
def ensureRealDirectory (w : World) (p : Path) : Except PyError Unit :=
  if p ∈ w.dirs then .ok ()
  else if p ∈ w.nodes then .error (.rejected "CPA credential directory is unsafe")
  else .error (.rejected "CPA credential directory is unavailable")

/-- `_contained_relative(path, root)`: the path below `root` of a regular file. -/
def containedRelative (w : World) (path root : Path) : Except PyError Path :=
  if path ∈ w.dirs then .error (.rejected "CPA credential file is unsafe")
  else match w.nodes.lookup path with
    | none => .error (.rejected "CPA credential file is unavailable")
    | some node => match regular node with
      | none => .error (.rejected "CPA credential file is unsafe")
      | some _ =>
        if root <+: path then .ok (path.drop root.length)
        else .error (.rejected "CPA credential file is outside the configured directory")

/-- A character of `[a-z0-9._-]`. -/
def plainChar (c : ℕ) : Bool :=
  (97 ≤ c && c ≤ 122) || (48 ≤ c && c ≤ 57) || c == 46 || c == 95 || c == 45

/-- `_safe_reason` -/
def safeReason (py : Py) (reason : Str) : Str :=
  let value := py.lower (strip reason)
  if value ≠ [] ∧ value.length ≤ 128 ∧ value.all plainChar then value else lit "unspecified"

/-! ### The manifest -/

/-- `document["entries"]` -/
def entriesOf (document : Dict) : List Json :=
  match get document (lit "entries") with
  | .arr entries => entries
  | _ => []

/-- `_manifest`: the document, or a new one if there is no file. -/
def manifest (w : World) : Except PyError Dict :=
  let invalid : Except PyError Dict := .error (.rejected "CPA quarantine manifest is invalid")
  if !pathExists w (cfg.inArchive manifestName) then
    .ok [(lit "schema", .str manifestSchema), (lit "entries", .arr [])]
  else match w.nodes.lookup (cfg.inArchive manifestName) with
    | some (.file file) =>
      if maxManifestBytes < file.bytes.length then invalid
      else match file.content with
        | .raised e => .error e
        | .unicodeError => .error .value
        | .jsonError => invalid
        | .value (.obj document) =>
          match get document (lit "entries") with
          | .arr _ =>
            .ok (if has document (lit "schema") then document
              else set document (lit "schema") (.str manifestSchema))
          | _ => invalid
        | .value _ => invalid
    | _ => invalid

/-- The steps of `_atomic_write_json`. `encode` is the encoding of the text, `flush` its writing and
the `fsync` of the temporary, `fsync` that of the directory. -/
inductive WriteStep where
  | create
  | encode
  | flush
  | chmod
  | replace
  | fsync
deriving DecidableEq

/-- `_atomic_write_json(path, document)`. The text is written as UTF-8 without `ensure_ascii`, so a
lone surrogate in it raises; the temporary is removed in any case. -/
def atomicWriteJson (py : Py) (fails : WriteStep → Bool) (path : Path) (document : Dict) :
    Act World PyError Unit := do
  .step fails .create .os (.modify fun w => { w with temporary := some emptyFile })
  Act.ensuring
    (do
      .step fails .encode .unicodeEncode
        (if encodable (dumps py false (.obj document)) then
          .modify fun w => { w with temporary := some (jsonFile py false document) }
        else .raise .unicodeEncode)
      .step fails .flush .os (pure ())
      .step fails .chmod .os (pure ())
      .step fails .replace .os (.modify fun w => { w with
        nodes := w.nodes.insert path (.file (w.temporary.getD emptyFile)), temporary := none })
      .step fails .fsync .os (pure ()))
    fun w => { w with temporary := none }

/-- The archive directory, its parents and its lock file exist. -/
def lockedWorld (w : World) : World :=
  let made := { w with dirs := w.dirs ∪ cfg.archiveDir.inits.toFinset }
  if pathExists made (cfg.inArchive lockName) then made
  else { made with nodes := w.nodes.insert (cfg.inArchive lockName) (.file emptyFile) }

/-- `_quarantine_lock`: make the archive directory and its lock file. -/
def lockArchive : Act World PyError Unit := fun w =>
  if cfg.archiveDir ∉ w.dirs ∧ ∃ p ∈ cfg.archiveDir.inits, p ∈ w.nodes then (.error .os, w)
  else (.ok (), lockedWorld cfg w)

/-! ### `quarantine_auth_record` -/

/-- A name `_unique_archive_path` may use. -/
def freeName (w : World) (name : FileName) : Bool :=
  name ≠ manifestName && name ≠ lockName && !pathExists w (cfg.inArchive name)

/-- `_unique_archive_path`: the source's own name, or the first free numbered one. -/
def uniqueArchivePath (w : World) (name : FileName) : FileName :=
  if freeName cfg w name then name
  else numbered name (search (fun index => freeName cfg w (numbered name index))
    ((w.nodes.keys ∪ w.dirs).card + 2) 2)

/-- The steps of `quarantine_auth_record` and `restore_quarantined_auth`; `prepare` is taking the
lock. -/
inductive Step where
  | prepare
  | move
  | chmod
  | fsyncSource
  | fsyncTarget
  | write (s : WriteStep)
  | rollbackMove
  | rollbackSource
  | rollbackTarget
deriving DecidableEq

/-- `os.replace` as a step. -/
def replaceStep (source target : Path) : Act World PyError Unit := fun w =>
  match osReplace source target w with
  | none => (.error .os, w)
  | some w' => (.ok (), w')

/-- `path.chmod(0o600)` -/
def makeReadable (path : Path) (w : World) : World :=
  match w.nodes.lookup path with
  | some (.locked f) => { w with nodes := w.nodes.insert path (.file f) }
  | _ => w

/-- The manifest write of both calls and its handler, which catches only an `OSError` and moves the
file back; `undone` and `lost` are the messages then. -/
def writeOrUndo (py : Py) (fails : Step → Bool) (source target : Path) (document : Dict)
    (undone lost : String) : Act World PyError Unit :=
  Act.except
    (atomicWriteJson py (fun s => fails (.write s)) (cfg.inArchive manifestName) document)
    (fun e => if e ≠ .os then .raise e else do
      Act.except
        (do
          .step fails .rollbackMove .os (replaceStep target source)
          .step fails .rollbackSource .os (pure ())
          .step fails .rollbackTarget .os (pure ()))
        (fun _ => .raise (.rejected lost))
      .raise (.rejected undone))

/-- What both calls do after their checks: move the file, make it private, sync the two directories
and write the manifest. Only the last step is in a `try` block. -/
def transaction (py : Py) (fails : Step → Bool) (source target : Path) (document : Dict)
    (undone lost : String) : Act World PyError Unit := do
  .step fails .move .os (replaceStep source target)
  .step fails .chmod .os (.modify (makeReadable target))
  .step fails .fsyncSource .os (pure ())
  .step fails .fsyncTarget .os (pure ())
  writeOrUndo cfg py fails source target document undone lost

/-- The manifest entry of a quarantined file. -/
def entryOf (py : Py) (relative : Path) (target : FileName) (reason movedAt : Str) : Json :=
  .obj [(lit "source_relative", .str (posix relative)), (lit "quarantine_name", .str target.text),
    (lit "reason", .str (safeReason py reason)), (lit "moved_at", .str movedAt)]

/-- `quarantine_auth_record` after its checks. -/
def quarantineBody (py : Py) (fails : Step → Bool) (document : Dict) (source : Path)
    (target : FileName) (entry : Json) : Act World PyError FileName := do
  transaction cfg py fails source (cfg.inArchive target)
    (set document (lit "entries") (.arr (entriesOf document ++ [entry])))
    "CPA quarantine manifest write failed; credential was restored"
    "CPA quarantine transaction and rollback failed"
  pure target

/-- `quarantine_auth_record` under the lock. -/
def quarantineLocked (py : Py) (sameDevice : Bool) (fails : Step → Bool) (source : Path)
    (relative : Path) (reason movedAt : Str) : Act World PyError FileName := fun w =>
  if !sameDevice then (.error (.rejected "CPA quarantine requires one filesystem"), w)
  else match manifest cfg w, source.getLast? with
    | .error e, _ => (.error e, w)
    | .ok _, none => (.error .os, w)
    | .ok document, some name =>
      let target := uniqueArchivePath cfg w name
      quarantineBody cfg py fails document source target (entryOf py relative target reason movedAt) w

/-- `quarantine_auth_record` of the file at `source`; returns its name in the archive. -/
def quarantineAuthRecord (py : Py) (sameDevice : Bool) (fails : Step → Bool)
    (source : Path) (reason movedAt : Str) : Act World PyError FileName := fun w =>
  match ensureRealDirectory w cfg.authDir, containedRelative w source cfg.authDir with
  | .error e, _ => (.error e, w)
  | .ok (), .error e => (.error e, w)
  | .ok (), .ok relative =>
    (do
      .step fails .prepare .os (lockArchive cfg)
      quarantineLocked cfg py sameDevice fails source relative reason movedAt :
        Act World PyError FileName) w

/-! ### `restore_quarantined_auth` -/

/-- The root of a path's text: exactly two slashes are a root of their own. -/
def rootOf (s : Str) : Str :=
  if startsWith s (lit "//") && !startsWith s (lit "///") then lit "//"
  else if startsWith s (lit "/") then lit "/" else []

/-- `pathlib.Path(s)` is below `dir`: `Path(s).relative_to(dir)` does not raise. -/
def below (s : Str) (dir : Path) : Bool :=
  rootOf s = lit "/" && decide (dir.map FileName.text <+: pathParts s)

/-- `_legacy_entry_paths`: the components of the place in the auth tree and of the archived file. -/
def legacyEntryPaths (py : Py) (entry : Dict) : Except PyError (List Str × List Str) :=
  let invalid : Except PyError (List Str × List Str) :=
    .error (.rejected "CPA quarantine manifest is invalid")
  let relative := get entry (lit "source_relative")
  let name := get entry (lit "quarantine_name")
  if truthy relative && truthy name then
    let relativeText := py.str relative
    let parts := pathParts relativeText
    if startsWith relativeText (lit "/") || parts = [] || parts.contains (lit "..") then invalid
    else if pathName (py.str name) ≠ py.str name then invalid
    else .ok (cfg.authDir.map FileName.text ++ parts,
      cfg.archiveDir.map FileName.text ++ [py.str name])
  else
    let source := py.str (pyOr (get entry (lit "source_path")) (.str []))
    let quarantine := py.str (pyOr (get entry (lit "quarantine_path")) (.str []))
    if below source cfg.authDir && below quarantine cfg.archiveDir then
      .ok (pathParts source, pathParts quarantine)
    else invalid

/-- The names an entry answers to. -/
def selectors (py : Py) (entry : Dict) (source : List Str) : List Str :=
  [source.getLast?.getD [], py.str (pyOr (get entry (lit "account")) (.str [])),
    py.str (pyOr (get entry (lit "codexx_account")) (.str []))].filter (· ≠ [])

/-- The entries that a selector matches, from the `index`-th on, with their places and paths. -/
def matchEntries (py : Py) (selector : Str) :
    ℕ → List Json → Except PyError (List (ℕ × List Str × List Str))
  | _, [] => .ok []
  | index, .obj entry :: rest =>
    match legacyEntryPaths cfg py entry with
    | .error e => .error e
    | .ok (target, source) =>
      (matchEntries py selector (index + 1) rest).map fun more =>
        if selector ∈ selectors py entry source then (index, target, source) :: more else more
  | _, _ :: _ => .error (.rejected "CPA quarantine manifest is invalid")

/-- The checks of `restore_quarantined_auth` before the move: the place of the entry, the archived
file and the path it goes back to. -/
def restoreSelect (py : Py) (sameDevice : Bool) (w : World) (document : Dict) (selector : Str) :
    Except PyError (ℕ × Path × Path) :=
  match matchEntries cfg py selector 0 (entriesOf document) with
  | .error e => .error e
  | .ok [(index, targetParts, sourceParts)] =>
    match resolve w [] sourceParts with
    | none => .error (.rejected "CPA credential file is unavailable")
    | some source => match containedRelative w source cfg.archiveDir with
      | .error e => .error e
      | .ok relative =>
        if (relative.getLast?.map FileName.text).getD [] ≠ sourceParts.getLast?.getD [] then
          .error (.rejected "CPA quarantine manifest is invalid")
        else match resolve w [] targetParts.dropLast, resolve w [] targetParts with
          | some parent, some target =>
            if parent ∉ w.dirs ∨ pathExists w target then
              .error (.rejected "CPA restore target is unavailable")
            else if !sameDevice then .error (.rejected "CPA restore requires one filesystem")
            else .ok (index, source, target)
          | some parent, none =>
            if parent ∉ w.dirs then .error (.rejected "CPA restore target is unavailable")
            else .error .value
          | none, _ => .error (.rejected "CPA restore target is unavailable")
  | .ok _ => .error (.rejected "CPA quarantine selector did not match exactly one entry")

/-- `restore_quarantined_auth` after its checks. -/
def restoreBody (py : Py) (fails : Step → Bool) (document : Dict) (index : ℕ)
    (source target : Path) : Act World PyError (Path × Path) := do
  transaction cfg py fails source target
    (set document (lit "entries") (.arr ((entriesOf document).eraseIdx index)))
    "CPA restore manifest write failed; credential remained quarantined"
    "CPA restore transaction and rollback failed"
  pure (source, target)

/-- `restore_quarantined_auth` under the lock. -/
def restoreLocked (py : Py) (sameDevice : Bool) (fails : Step → Bool) (selector : Str) :
    Act World PyError (Path × Path) := fun w =>
  match manifest cfg w with
  | .error e => (.error e, w)
  | .ok document => match restoreSelect cfg py sameDevice w document selector with
    | .error e => (.error e, w)
    | .ok (index, source, target) => restoreBody cfg py fails document index source target w

/-- `restore_quarantined_auth`; returns the archived path and the path it was restored to. -/
def restoreQuarantinedAuth (py : Py) (sameDevice : Bool) (fails : Step → Bool)
    (selector : Str) : Act World PyError (Path × Path) := fun w =>
  match ensureRealDirectory w cfg.authDir with
  | .error e => (.error e, w)
  | .ok () =>
    (do
      .step fails .prepare .os (lockArchive cfg)
      restoreLocked cfg py sameDevice fails selector : Act World PyError (Path × Path)) w

/-! ### A small disk -/

/-- The directories `/auth` and `/archive`. -/
def sampleConfig : Config where
  authDir := [⟨lit "auth", by decide⟩]
  archiveDir := [⟨lit "archive", by decide⟩]
  apart := by decide

/-- `/auth/a.json` -/
def samplePath : Path := sampleConfig.authDir ++ [aJson]

/-- The file `/auth/a.json` with the text `one`, and no archive. -/
def oneDisk : World := ⟨Finmap.singleton samplePath (.file (textFile "one")),
  {[], sampleConfig.authDir}, none⟩

end Cloudx.Cloud.Quarantine
