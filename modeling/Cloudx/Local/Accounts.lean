import Cloudx.Lib.Threads
import Cloudx.Lib.Trees
import Cloudx.Local.Broker
import Cloudx.Local.ShellModes
import Cloudx.Python.Dump

/-! # Account homes

`accounts.py` keeps a home for each account of the official Codex, in a directory of its own, and the name of
the account that was selected last. `remove` moves an account into an archive, `rename` gives it another
name.

The commands are processes that share the disk with each other and with Codex, so each is a program of
several accesses: one for each path that is looked at, each directory that is made, each file that is
written and each rename. -/

namespace Cloudx.Local.Accounts

open Cloudx.Lib.Fault Cloudx.Lib.Threads Cloudx.Lib.Threads.Thread Cloudx.Lib.Trees
open Cloudx.Python.Text Cloudx.Python.Value Cloudx.Python.Dump
open Cloudx.Local.Broker (Raised ofDecoder)
open Cloudx.Local.ShellModes

/-! ### Names and places -/

/-- An absolute path: its components from the root. -/
abbrev Path := List FileName

/-- The files of a user. -/
abbrev Disk := Tree FileName File

/-- `str(path)` -/
def pathText (p : Path) : Str := 47 :: [47].intercalate (p.map FileName.text)

/-- The directories of `LocalConfig`. -/
structure LocalConfig where
  home : Path
  stateDir : Path
  dataDir : Path
  accountsDir : Path

/-- `".codex"` -/
def codexName : FileName := ⟨lit ".codex", by decide⟩

/-- `"accounts.json"` -/
def stateName : FileName := ⟨lit "accounts.json", by decide⟩

/-- `"account-archive"` -/
def archiveName : FileName := ⟨lit "account-archive", by decide⟩

/-- A letter or a digit of the ASCII. -/
def alphanumeric (c : ℕ) : Bool :=
  (48 ≤ c && c ≤ 57) || (65 ≤ c && c ≤ 90) || (97 ≤ c && c ≤ 122)

/-- `[A-Za-z0-9][A-Za-z0-9._-]{0,63}` -/
def plainName : Str → Bool
  | [] => false
  | c :: rest => alphanumeric c && rest.length ≤ 63 && rest.all fun c => alphanumeric c || c ∈ lit "._-"

/-- `ACCOUNT_NAME.match(name)`; its `$` also matches before a line feed at the end. -/
def accountName (name : Str) : Bool :=
  plainName name || name.getLast? = some 10 && plainName name.dropLast

/-- The `RuntimeError` of a message. -/
def rejected {α : Type} (message : Str) : Except Raised α := .error (.runtimeError message)

/-- `account_home`; a name that matches is one of a file. -/
def accountHome (cfg : LocalConfig) (name : Str) : Except Raised Path :=
  match FileName.ofStr? name with
  | some n => if accountName name then .ok (cfg.accountsDir ++ [n, codexName])
    else rejected (lit "account name must use letters, digits, dot, underscore, or hyphen")
  | none => rejected (lit "account name must use letters, digits, dot, underscore, or hyphen")

/-- `state_path` -/
def statePath (cfg : LocalConfig) : Path := cfg.stateDir ++ [stateName]

/-- `config.state_dir / "account-archive"` -/
def archiveDir (cfg : LocalConfig) : Path := cfg.stateDir ++ [archiveName]

/-- Where the components of a path lead from a directory. -/
def resolve (t : Disk) : Path → List Str → Option Path
  | cur, [] => some cur
  | cur, part :: rest =>
    if part = lit ".." then if t.node cur = some .dir then resolve t cur.dropLast rest else none
    else match FileName.ofStr? part with
      | none => none
      | some name => resolve t (cur ++ [name]) rest

/-- Where `directory / name` leads; an absolute name leads away from the directory. -/
def joined (t : Disk) (directory : Path) (name : Str) : Option Path :=
  if startsWith name (lit "/") then resolve t [] (pathParts name)
  else resolve t directory (pathParts name)

/-! ### Accesses -/

/-- A process that works on the files. -/
abbrev Program := Thread Disk (Change FileName) Raised

/-- Looks at the disk. -/
def see {α : Type} (f : Disk → α) : Program α := look (fun _ => none) fun t => .ok (f t)

/-- `None` as an `OSError` that leaves the disk as it is. -/
def orRefused {α : Type} (f : Disk → Option Disk) (a : α) : Act Disk Raised α := fun t =>
  match f t with
  | some t' => (.ok a, t')
  | none => (.error .osError, t)

/-- `os.mkdir(path)`, if there is nothing yet. -/
def makeDirectory (path : Path) : Program Unit :=
  atomically (fun t _ => if t.node path = none then (t.place path .dir).map fun _ => .made path else none)
    (orRefused (fun t => if t.node path = none then t.place path .dir
      else if t.isDir path then some t else none) ())

/-- `ensure_private_directory` -/
def ensurePrivateDirectory (path : Path) : Program Unit := do
  let _ ← each makeDirectory path.inits
  return ()

/-- `os.replace(temp_name, path)` of a file that was written next to it. -/
def putFile (path : Path) (f : File) : Program Unit :=
  atomically (fun t _ => (t.place path (.file f)).map fun _ => .saved path)
    (orRefused (fun t => t.place path (.file f)) ())

/-- `atomic_json` -/
def atomicJson (py : Py) (path : Path) (value : Dict) : Program Unit := do
  ensurePrivateDirectory path.dropLast
  putFile path (jsonFile py true value)

/-- `os.replace(source, target)` -/
def osReplace (source target : Path) : Program Unit :=
  atomically (fun t _ => (t.move source target).map fun _ =>
      if t.node source = some .dir then .moved source target else .replaced source target)
    (orRefused (fun t => t.move source target) ())

/-! ### The selected account -/

/-- What a file of a state holds. -/
def stateOf (f : Option File) : Except Raised Dict :=
  match f.map File.content with
  | some (.value (.obj d)) => .ok d
  | some .unicodeError => .error .valueError
  | some (.raised e) => .error (ofDecoder e)
  | _ => .ok []

/-- `read_state` -/
def readState (cfg : LocalConfig) : Program Dict :=
  look (fun _ => none) fun t => stateOf (t.file? (statePath cfg))

/-- `"lastSelected"` -/
def lastSelected : Str := lit "lastSelected"

/-- `current_account`, from the variable of its shell. -/
def currentAccount (active : Option Str) : Str := strip (active.getD [])

/-! ### Commands -/

section

variable (py : Py) (cfg : LocalConfig)

/-- `"unknown account: %s" % name` -/
def unknownAccount {α : Type} (name : Str) : Program α :=
  lift (rejected (lit "unknown account: " ++ name))

/-- `"account already exists: %s" % name` -/
def alreadyExists {α : Type} (name : Str) : Program α :=
  lift (rejected (lit "account already exists: " ++ name))

/-- `codexx add` -/
def add (name : Str) : Program Unit := do
  let home ← lift (accountHome cfg name)
  if ← see (·.exists home) then alreadyExists name
  else ensurePrivateDirectory home

/-- `shell_select` -/
def shellSelect (name : Str) : Program Str := do
  let home ← lift (accountHome cfg name)
  if !(← see (·.isDir home)) then unknownAccount name
  else do
    atomicJson py (statePath cfg) [(lastSelected, .str name)]
    return selectText (pathText cfg.home) (pathText home) name

/-- A home whose directory and which itself is no link, and which is a directory. -/
def isHome (t : Disk) (source : Path) : Bool :=
  !t.isLink source && !t.isLink (source ++ [codexName]) && t.isDir (source ++ [codexName])

/-- `codexx remove`, with the text of the time. -/
def remove (active : Option Str) (timestamp name : Str) : Program Unit := do
  if currentAccount active = name then
    lift (rejected (lit "exit the active account before removing it"))
  else do
    let source ← see fun t => (joined t cfg.accountsDir name).filter (isHome t)
    match source with
    | none => unknownAccount name
    | some source => do
      ensurePrivateDirectory (archiveDir cfg)
      let target ← see fun t => joined t (archiveDir cfg) (timestamp ++ 45 :: name)
      match target with
      | none => lift (.error .osError)
      | some target => do
        osReplace source target
        let state ← readState cfg
        if get state lastSelected = .str name then atomicJson py (statePath cfg) []
        else return ()

/-- `codexx rename` -/
def rename (active : Option Str) (old new : Str) : Program Unit := do
  if currentAccount active = old then
    lift (rejected (lit "exit the active account before renaming it"))
  else do
    let oldHome ← lift (accountHome cfg old)
    let newHome ← lift (accountHome cfg new)
    if !(← see (isHome · oldHome.dropLast)) then unknownAccount old
    else if ← see (·.exists newHome.dropLast) then alreadyExists new
    else do
      osReplace oldHome.dropLast newHome.dropLast
      let state ← readState cfg
      if get state lastSelected = .str old then
        atomicJson py (statePath cfg) [(lastSelected, .str new)]
      else return ()

end

end Cloudx.Local.Accounts
