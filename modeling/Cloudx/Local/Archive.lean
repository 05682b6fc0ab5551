import Cloudx.Lib.Store
import Cloudx.Lib.Fresh
import Cloudx.Lib.Fault
import Cloudx.Python.Dump

/-! # The local credential archive

`archive_candidates` moves credential files from the auth directory into the archive directory and
lists them in `manifest.json`; `restore_run` moves one back. Both hold the archive lock, so a call
is one transaction over the two directories.

Every file-system step of a call is marked, and a fault plan says which of them fail. The plan that
fails nothing gives the ordinary behaviour. -/

namespace Cloudx.Local.Archive

open Cloudx.Lib.Store Cloudx.Lib.Fresh Cloudx.Lib.Fault
open Cloudx.Python.Text Cloudx.Python.Value Cloudx.Python.Dump

/-! ### State -/

/-- The directories a call works on. `temporary` is the manifest temporary while one exists, and
`receipts` are the failure receipts waiting to be consumed. -/
structure World where
  auth : Dir FileName File
  archive : Dir FileName File
  temporary : Option File
  receipts : Finset FileName

/-- `archive_dir / "manifest.json"` -/
def manifestName : FileName := ⟨lit "manifest.json", validName_manifest⟩

/-- `archive_dir / ".archive.lock"` -/
def lockName : FileName := ⟨lit ".archive.lock", by decide⟩

/-- `MANIFEST_SCHEMA` -/
def manifestSchema : Str := lit "cloudx.local-cpa-archive.v1"

/-- `MAX_AUTH_FILE_BYTES` -/
def maxAuthFileBytes : ℕ := 4 * 1024 * 1024

/-- `MAX_MANIFEST_BYTES` -/
def maxManifestBytes : ℕ := 4 * 1024 * 1024

/-- `AuthRecord` -/
structure AuthRecord where
  path : FileName
  digest : Str
  staticReason : Str
deriving DecidableEq

/-- `ArchiveCandidate` -/
structure ArchiveCandidate where
  record : AuthRecord
  reason : Str
  receipt : Option FileName
deriving DecidableEq

/-! ### The manifest -/

/-- `document["entries"]` -/
def entriesOf (document : Dict) : List Json :=
  match get document (lit "entries") with
  | .arr entries => entries
  | _ => []

/-- `_manifest`: the document, or a new one if there is no file. -/
def manifest (archive : Dir FileName File) : Except PyError Dict :=
  let invalid : Except PyError Dict := .error (.rejected "local CPA archive manifest is invalid")
  match archive.lookup manifestName with
  | none => .ok [(lit "schema", .str manifestSchema), (lit "entries", .arr [])]
  | some file =>
    if maxManifestBytes < file.bytes.length then invalid
    else match file.content with
      | .raised e => .error e
      | .jsonError => invalid
      | .unicodeError => invalid
      | .value (.obj document) =>
        if get document (lit "schema") = .str manifestSchema then
          match get document (lit "entries") with
          | .arr _ => .ok document
          | _ => invalid
        else invalid
      | .value _ => invalid

/-- The steps of `atomic_write` on the manifest. -/
inductive WriteStep where
  | createTemporary
  | writeTemporary
  | replaceManifest
deriving DecidableEq

/-- `atomic_json(manifest_path, document)`: write a temporary, rename it over the manifest, and
remove it if that fails. -/
def atomicJson (py : Py) (fails : WriteStep → Bool) (document : Dict) : Act World PyError Unit := do
  .step fails .createTemporary .os (.modify fun w => { w with temporary := some emptyFile })
  Act.except
    (do
      .step fails .writeTemporary .os
        (.modify fun w => { w with temporary := some (jsonFile py true document) })
      .step fails .replaceManifest .os (.modify fun w => { w with
        archive := w.archive.insert manifestName (w.temporary.getD emptyFile), temporary := none }))
    (fun e => do
      .modify fun w => { w with temporary := none }
      .raise e)

/-! ### Choosing an archive name -/

/-- `_unique_target`: the source's own name, or the first free numbered one. -/
def uniqueTarget (archive : Dir FileName File) (source : FileName) : FileName :=
  if source ≠ manifestName ∧ source ≠ lockName ∧ source ∉ archive then source
  else numbered source
    (search (fun index => decide (numbered source index ∉ archive)) archive.keys.card 2)

/-- The candidates whose file still has the recorded digest, each with its target. All targets are
chosen before any file is moved. -/
def select (py : Py) (w : World) :
    List ArchiveCandidate → Except PyError (List (ArchiveCandidate × FileName))
  | [] => .ok []
  | c :: cs =>
    match w.auth.lookup c.record.path with
    | none => select py w cs
    | some file =>
      if maxAuthFileBytes < file.bytes.length then
        .error (.rejected "CPA auth file is too large")
      else if py.sha256 file.bytes ≠ c.record.digest then select py w cs
      else (select py w cs).map ((c, uniqueTarget w.archive c.record.path) :: ·)

/-! ### `archive_candidates` -/

/-- The steps of `archive_candidates`. `prepare` stands for making and locking the archive
directory, `rollback i` for the `i`-th rename of the rollback. -/
inductive ArchiveStep where
  | prepare
  | move (i : ℕ)
  | chmod (i : ℕ)
  | write (s : WriteStep)
  | fsyncArchive
  | fsyncAuth
  | rollback (i : ℕ)
deriving DecidableEq

/-- The state of the `try` block: the directories and the list `moved`. -/
structure Txn where
  world : World
  moved : List (FileName × FileName)

/-- A program over the directories, inside the `try` block. -/
def Txn.lift {α : Type} (x : Act World PyError α) : Act Txn PyError α := fun t =>
  ((x t.world).1, { t with world := (x t.world).2 })

/-- `os.replace(auth_dir / source, archive_dir / target)` -/
def replaceIntoArchive (source target : FileName) : Act World PyError Unit := fun w =>
  match transfer w.auth w.archive source target with
  | none => (.error .os, w)
  | some (auth, archive) => (.ok (), { w with auth := auth, archive := archive })

/-- The manifest entry of a moved file. -/
def entryOf (c : ArchiveCandidate) (target : FileName) (movedAt : Str) : Json :=
  .obj [(lit "sourceName", .str c.record.path.text), (lit "archiveName", .str target.text),
    (lit "reason", .str c.reason), (lit "movedAt", .str movedAt),
    (lit "authSha256", .str c.record.digest)]

/-- The loop over the selected candidates, from the `i`-th on; returns the manifest entries. -/
def moveLoop (fails : ArchiveStep → Bool) (movedAt : Str) :
    ℕ → List (ArchiveCandidate × FileName) → List Json → Act Txn PyError (List Json)
  | _, [], entries => pure entries
  | i, (c, target) :: rest, entries => do
    .step fails (.move i) .os (Txn.lift (replaceIntoArchive c.record.path target))
    .step fails (.chmod i) .os (pure ())
    .modify fun t => { t with moved := t.moved ++ [(c.record.path, target)] }
    moveLoop fails movedAt (i + 1) rest (entries ++ [entryOf c target movedAt])

/-- The `try` block. -/
def archiveBody (py : Py) (fails : ArchiveStep → Bool) (movedAt : Str) (document : Dict)
    (selected : List (ArchiveCandidate × FileName)) : Act Txn PyError Unit := do
  let entries ← moveLoop fails movedAt 0 selected (entriesOf document)
  Txn.lift (atomicJson py (fun s => fails (.write s)) (set document (lit "entries") (.arr entries)))
  .step fails .fsyncArchive .os (pure ())
  .step fails .fsyncAuth .os (pure ())

/-- The rollback over `reversed(moved)`; the flag is `rollback_failed`. -/
def rollback (fails : ArchiveStep → Bool) : ℕ → List (FileName × FileName) → World → Bool × World
  | _, [], w => (false, w)
  | i, (source, target) :: rest, w =>
    if source ∉ w.auth ∧ target ∈ w.archive then
      if fails (.rollback i) then (true, (rollback fails (i + 1) rest w).2)
      else match transfer w.archive w.auth target source with
        | none => (true, (rollback fails (i + 1) rest w).2)
        | some (archive, auth) =>
          rollback fails (i + 1) rest { w with auth := auth, archive := archive }
    else rollback fails (i + 1) rest w

/-- The exception the rollback ends with. -/
def archiveError (rollbackFailed : Bool) : PyError → PyError
  | .rejected message =>
    if rollbackFailed then .rejected "local CPA archive failed and rollback was incomplete"
    else .rejected message
  | _ =>
    if rollbackFailed then .rejected "local CPA archive failed and rollback was incomplete"
    else .rejected "local CPA archive transaction failed; credentials were restored"

/-- The receipts of the archived candidates. -/
def consumedReceipts (selected : List (ArchiveCandidate × FileName)) (archived : List FileName) :
    List FileName :=
  selected.filterMap fun (c, target) => if target ∈ archived then c.receipt else none

/-- The lock file is created by its first opener. -/
def World.locked (w : World) : World :=
  if lockName ∈ w.archive then w else { w with archive := w.archive.insert lockName emptyFile }

/-- `archive_candidates` under the lock. -/
def archiveLocked (py : Py) (sameDevice : Bool) (fails : ArchiveStep → Bool)
    (candidates : List ArchiveCandidate) (movedAt : Str) : Act World PyError ℕ := fun w =>
  if !sameDevice then (.error (.rejected "local CPA archive requires one filesystem"), w)
  else match manifest w.archive with
    | .error e => (.error e, w)
    | .ok document => match select py w candidates with
      | .error e => (.error e, w)
      | .ok selected => match archiveBody py fails movedAt document selected ⟨w, []⟩ with
        | (.ok (), t) => (.ok t.moved.length, { t.world with
            receipts := t.world.receipts \ (consumedReceipts selected (t.moved.map Prod.snd)).toFinset })
        | (.error e, t) =>
          (.error (archiveError (rollback fails 0 t.moved.reverse t.world).1 e),
            (rollback fails 0 t.moved.reverse t.world).2)

/-- `archive_candidates`, on one filesystem or two. -/
def archiveCandidates (py : Py) (sameDevice : Bool) (fails : ArchiveStep → Bool)
    (candidates : List ArchiveCandidate) (movedAt : Str) : Act World PyError ℕ :=
  if candidates = [] then pure 0 else do
    .step fails .prepare .os (.modify World.locked)
    archiveLocked py sameDevice fails candidates movedAt

/-! ### `restore_run` -/

/-- The steps of `restore_run`. -/
inductive RestoreStep where
  | prepare
  | move
  | chmod
  | write (s : WriteStep)
  | rollback
deriving DecidableEq

/-- The places of the entries a selector matches. -/
def matching (entries : List Json) (selector : Str) : List (Json × ℕ) :=
  entries.zipIdx.filter fun (entry, _) =>
    match entry with
    | .obj d => decide (get d (lit "archiveName") = .str selector)
    | _ => false

/-- A name `pathlib` leaves alone and that ends in `.json`. -/
def plainJsonName (s : Str) : Bool := pathName s = s && endsWith s (lit ".json")

/-- The checks of `restore_run` before the move: the place of the entry, the archived file and the
name it goes back to. -/
def restoreSelect (py : Py) (w : World) (document : Dict) (selector : Str) :
    Except PyError (ℕ × FileName × FileName) :=
  match matching (entriesOf document) selector with
  | [(entry, index)] =>
    let archiveName := py.str (pyOr (get (asDict entry) (lit "archiveName")) (.str []))
    let sourceName := py.str (pyOr (get (asDict entry) (lit "sourceName")) (.str []))
    if !plainJsonName archiveName || !plainJsonName sourceName then
      .error (.rejected "local CPA restore manifest paths are invalid")
    else match FileName.ofStr? archiveName, FileName.ofStr? sourceName with
      | some source, some target =>
        if source ∉ w.archive ∨ target ∈ w.auth then
          .error (.rejected "local CPA restore paths are unavailable")
        else .ok (index, source, target)
      | _, _ => .error (.rejected "local CPA restore paths are unavailable")
  | _ => .error (.rejected "local CPA restore selector did not match exactly one entry")

/-- `os.replace(archive_dir / source, auth_dir / target)` -/
def replaceFromArchive (source target : FileName) : Act World PyError Unit := fun w =>
  match transfer w.archive w.auth source target with
  | none => (.error .os, w)
  | some (archive, auth) => (.ok (), { w with auth := auth, archive := archive })

/-- `restore_run` after its checks: move, then rewrite the manifest, moving back if that fails. The
`chmod` between them is outside both `try` blocks. -/
def restoreBody (py : Py) (fails : RestoreStep → Bool) (document : Dict) (index : ℕ)
    (source target : FileName) : Act World PyError Unit := do
  Act.except (.step fails .move .os (replaceFromArchive source target))
    (fun _ => .raise (.rejected "local CPA restore move failed"))
  .step fails .chmod .os (pure ())
  Act.except
    (atomicJson py (fun s => fails (.write s))
      (set document (lit "entries") (.arr ((entriesOf document).eraseIdx index))))
    (fun _ => do
      .step fails .rollback .os (replaceIntoArchive target source)
      .raise (.rejected "local CPA restore manifest failed; credential remained archived"))

/-- `restore_run` under the lock. -/
def restoreLocked (py : Py) (sameDevice : Bool) (fails : RestoreStep → Bool) (selector : Str) :
    Act World PyError Unit := fun w =>
  match manifest w.archive with
  | .error e => (.error e, w)
  | .ok document => match restoreSelect py w document selector with
    | .error e => (.error e, w)
    | .ok (index, source, target) =>
      if !sameDevice then (.error (.rejected "local CPA restore requires one filesystem"), w)
      else restoreBody py fails document index source target w

/-- `restore_run` with its two arguments, on one filesystem or two. -/
def restoreRun (py : Py) (sameDevice : Bool) (fails : RestoreStep → Bool) (selector confirm : Str) :
    Act World PyError Unit :=
  if confirm ≠ selector ∨ pathName selector ≠ selector then
    .raise (.rejected "local CPA restore confirmation does not match")
  else do
    .step fails .prepare .os (.modify World.locked)
    restoreLocked py sameDevice fails selector

end Cloudx.Local.Archive
