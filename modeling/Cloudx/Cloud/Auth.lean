import Cloudx.Cloud.Quarantine
import Cloudx.Shared.AgentIdentity
import Cloudx.Shared.Credential
import Mathlib.Data.Finset.Sort

/-! # Reading the cloud auth directory

What the cloud host finds in its auth directory: the files (`_iter_json_files`), their JSON
(`read_auth_json`), the accounts of a document (`payload_records`), one record a file for the static
check (`scan_auth_records`, `static_failure_reason`) and one context an account for the probe
(`auth_contexts`).

Reading a file is one access to the disk; everything after it is a function of what was read. -/

namespace Cloudx.Cloud.Auth

open Cloudx.Lib.Store
open Cloudx.Python.Text Cloudx.Python.Value Cloudx.Python.Dump
open Cloudx.Shared Cloudx.Shared.Credential
open Cloudx.Cloud.Disk Cloudx.Cloud.Quarantine

/-- `MAX_AUTH_FILE_BYTES` -/
def maxAuthFileBytes : ℕ := 1024 * 1024

/-- `MAX_AUTH_FILES` -/
def maxAuthFiles : ℕ := 4096

/-- `str(path)` of an absolute path. -/
def pathText (p : Path) : Str := 47 :: posix p

/-- `path.stem` -/
def stem (p : Path) : Str := stemOf ((p.getLast?.map FileName.text).getD [])

/-! ### Files -/

/-- The names of the entries of a directory among some paths, in order. -/
def namesIn (base : Path) (paths : Finset Path) : List Str :=
  ((paths.filter fun p => p ≠ [] ∧ p.dropLast = base).image
    fun p => (p.getLast?.map FileName.text).getD []).sort (· ≤ ·)

/-- `os.walk` from `base` down: the JSON files of a directory in order, then those of its
directories in order. -/
def walk (py : Py) (w : World) : ℕ → Path → List Path
  | 0, _ => []
  | fuel + 1, base =>
    ((namesIn base w.nodes.keys).filter fun n => endsWith (py.lower n) (lit ".json")).filterMap
        (fun n => (FileName.ofStr? n).map fun name => base ++ [name]) ++
      (namesIn base w.dirs).flatMap fun n =>
        match FileName.ofStr? n with
        | some name => walk py w fuel (base ++ [name])
        | none => []

/-- `_iter_json_files` -/
def iterJsonFiles (py : Py) (root : Path) (w : World) : Except PyError (List Path) := do
  if !pathExists w root then return []
  ensureRealDirectory w root
  let files := walk py w (w.dirs.card + 1) root
  if maxAuthFiles < files.length then
    .error (.rejected "CPA credential file count exceeds the safety limit")
  else return files

/-- What `read_auth_json` returns: an object, or the reason there is none. -/
inductive AuthRead where
  | data (d : Dict)
  | failed (reason : Str)
deriving DecidableEq

/-- `read_auth_json`: symbolic links are not followed. Only the two decode errors are caught. -/
def readAuthJson (w : World) (path : Path) : Except PyError AuthRead :=
  match w.nodes.lookup path with
  | none => .ok (.failed (lit "auth-file-unreadable"))
  | some (.locked _) => .ok (.failed (lit "auth-file-unreadable"))
  | some (.symlink _) => .ok (.failed (lit "auth-file-unreadable"))
  | some .special => .ok (.failed (lit "auth-file-not-regular"))
  | some (.file f) =>
    if maxAuthFileBytes < f.bytes.length then .ok (.failed (lit "auth-file-too-large"))
    else match f.content with
      | .raised e => .error e
      | .jsonError => .ok (.failed (lit "invalid-auth-json"))
      | .unicodeError => .ok (.failed (lit "invalid-auth-json"))
      | .value (.obj d) => .ok (.data d)
      | .value _ => .ok (.failed (lit "auth-json-not-object"))

/-! ### The accounts of a document -/

/-- The status of a record, with the reason of an invalid one. -/
inductive Status where
  | active
  | invalid (reason : Str)
deriving DecidableEq

/-- A record of an account or a file. A field its source does not set is empty or false. -/
structure AuthRecord where
  path : Path
  name : Str
  type : Str
  label : Str
  email : Str
  accountId : Str
  bundleAccount : Str
  source : Str
  codexxAccount : Str
  disabled : Bool
  hasAccessToken : Bool
  hasRefreshToken : Bool
  hasIdToken : Bool
  hasAgentIdentity : Bool
  expiresAt : Str
  status : Status
deriving DecidableEq

/-- The fields of a bundle entry that its credentials take over. -/
def carriedKeys : List Str :=
  [lit "name", lit "platform", lit "type", lit "extra", lit "concurrency", lit "priority",
    lit "rate_multiplier", lit "auto_pause_on_expired"]

/-- `_sub2api_payload`, for an entry with nonempty credentials. -/
def carryOver (py : Py) (entry credentials : Dict) : Dict :=
  let payload :=
    if truthy (get credentials (lit "expires_at")) && !truthy (get credentials (lit "auth_expires_at"))
    then set (pop credentials (lit "expires_at")) (lit "auth_expires_at")
      (get credentials (lit "expires_at"))
    else credentials
  let payload := carriedKeys.foldl (fun payload key =>
    setIf (has entry key && !has payload key) payload key (get entry key)) payload
  let payload := setIf (truthy (get payload (lit "chatgpt_account_id")) &&
    !truthy (get payload (lit "account_id"))) payload (lit "account_id")
    (get payload (lit "chatgpt_account_id"))
  let payload := setIf (truthy (get payload (lit "name")) && !truthy (get payload (lit "label")))
    payload (lit "label") (get payload (lit "name"))
  let name := py.text [get entry (lit "name")]
  setIf (!truthy (get payload (lit "email")) && name.contains 64) payload (lit "email") (.str name)

/-- `_sub2api_payload` -/
def sub2apiPayload (py : Py) (entry : Dict) : Dict :=
  match get entry (lit "credentials") with
  | .obj credentials => if credentials.isEmpty then [] else carryOver py entry credentials
  | _ => []

/-- The record and the payload of the bundle entry number `index`, if it has a token. -/
def bundleRecord (py : Py) (source : Path) (index : ℕ) (entry : Dict) : Option (AuthRecord × Dict) :=
  let payload := sub2apiPayload py entry
  let tokens := authTokens py payload
  if !tokens.any then none
  else
    let name := py.text [get entry (lit "name"), get payload (lit "email"),
      .str (lit "account-" ++ decimal index)]
    some ({
      path := source
      name := name
      type := lit "codex"
      label := name
      email := py.text [get payload (lit "email")]
      accountId := authAccountId py payload
      bundleAccount := name
      source := lit "sub2api"
      codexxAccount := []
      disabled := false
      hasAccessToken := tokens.access ≠ []
      hasRefreshToken := tokens.refresh ≠ []
      hasIdToken := tokens.id ≠ []
      hasAgentIdentity := false
      expiresAt := py.text [get payload (lit "auth_expires_at")]
      status := .active }, payload)

/-- The records of the entries of an accounts list, from number `index` on. -/
def bundleRecords (py : Py) (source : Path) : ℕ → List Json → List (AuthRecord × Dict)
  | _, [] => []
  | index, .obj entry :: rest =>
    (bundleRecord py source index entry).toList ++ bundleRecords py source (index + 1) rest
  | index, _ :: rest => bundleRecords py source (index + 1) rest

/-- The items of a list; nothing of another value. -/
def asList : Json → List Json
  | .arr items => items
  | _ => []

/-- `payload_records`: the accounts of a bundle, or the document itself. -/
def payloadRecords (py : Py) (source : Path) (data : Dict) : List (AuthRecord × Dict) :=
  let records := bundleRecords py source 1 (asList (get data (lit "accounts")))
  if records ≠ [] then records
  else
    let tokens := authTokens py data
    if !tokens.any then []
    else
      [({
        path := source
        name := py.text [get data (lit "codexx_account"), get data (lit "label"),
          get data (lit "email"), get data (lit "user_email"), .str (stem source)]
        type := py.str (pyOr (get data (lit "type")) (.str (lit "codex")))
        label := py.str (pyOrs [get data (lit "label")])
        email := py.str (pyOrs [get data (lit "email"), get data (lit "user_email")])
        accountId := authAccountId py data
        bundleAccount := []
        source := py.str (pyOrs [get data (lit "source")])
        codexxAccount := py.str (pyOrs [get data (lit "codexx_account")])
        disabled := truthy (get data (lit "disabled"))
        hasAccessToken := tokens.access ≠ []
        hasRefreshToken := tokens.refresh ≠ []
        hasIdToken := tokens.id ≠ []
        hasAgentIdentity := false
        expiresAt := py.text [get data (lit "expired"), get data (lit "expiry"),
          get data (lit "auth_expires_at")]
        status := .active }, data)]

/-- `payload_auth`: the authentication document of a payload, without its empty fields. -/
def payloadAuth (py : Py) (payload : Dict) : Dict :=
  let tokens := authTokens py payload
  let present := [(lit "access_token", tokens.access), (lit "refresh_token", tokens.refresh),
    (lit "id_token", tokens.id), (lit "account_id", authAccountId py payload)].filter (·.2 ≠ [])
  [(lit "auth_mode", .str (lit "chatgpt")),
    (lit "tokens", .obj (present.map fun kv => (kv.1, .str kv.2)))] ++
  ([lit "email", lit "user_email", lit "last_refresh", lit "plan_label", lit "renews_at",
      lit "plan_expires_at"].filterMap fun key =>
    match get payload key with
    | .str value => if strip value = [] then none else some (key, .str (strip value))
    | _ => none)

/-! ### The static check -/

/-- The record of a file that has no usable object in it. -/
def invalidRecord (path : Path) (type reason : Str) : AuthRecord where
  path := path
  name := stem path
  type := type
  label := []
  email := []
  accountId := []
  bundleAccount := []
  source := []
  codexxAccount := []
  disabled := false
  hasAccessToken := false
  hasRefreshToken := false
  hasIdToken := false
  hasAgentIdentity := false
  expiresAt := []
  status := .invalid reason

/-- The expiry of a document: a field of it, or that of one of its tokens. -/
def expiryText (py : Py) (data : Dict) (tokens : Tokens) : Except PyError Str :=
  let named := py.text [get data (lit "expired"), get data (lit "expiry"),
    get data (lit "auth_expires_at")]
  if named ≠ [] then .ok named
  else do
    let access := isoFromEpoch py (get (← decodeJwtPayload py tokens.access) (lit "exp"))
    if access ≠ [] then return access
    return isoFromEpoch py (get (← decodeJwtPayload py tokens.id) (lit "exp"))

/-- `auth_type or "codex"` -/
def shownType (authType : Str) : Str := if authType = [] then lit "codex" else authType

/-- The record of a document that is no bundle; none if it is no Codex credential. -/
def documentRecord (py : Py) (path : Path) (data : Dict) : Except PyError (Option AuthRecord) :=
  let authType := py.lower (py.text [get data (lit "type"), get data (lit "provider")])
  let agentMode := AgentIdentity.isAgentIdentity py data
  let agentValid := agentMode && AgentIdentity.isValid py data
  if authType ≠ [] ∧ authType ≠ lit "codex" then .ok none
  else if agentMode && !agentValid then
    .ok (some (invalidRecord path (shownType authType) (lit "invalid-agent-identity")))
  else
    let tokens := authTokens py data
    if authType = lit "codex" || truthy (get data (lit "codexx_account")) || tokens.any then do
      let expiresAt ← expiryText py data tokens
      return some {
        path := path
        name := py.str (pyOrs [get data (lit "codexx_account"), get data (lit "label"),
          .str (stem path)])
        type := shownType authType
        label := py.str (pyOrs [get data (lit "label")])
        email := []
        accountId := []
        bundleAccount := []
        source := py.str (pyOrs [get data (lit "source")])
        codexxAccount := py.str (pyOrs [get data (lit "codexx_account")])
        disabled := truthy (get data (lit "disabled"))
        hasAccessToken := tokens.access ≠ []
        hasRefreshToken := tokens.refresh ≠ []
        hasIdToken := tokens.id ≠ []
        hasAgentIdentity := agentValid
        expiresAt := expiresAt
        status := .active }
    else .ok none

/-- The records `scan_auth_records` makes of one file. -/
def fileRecords (py : Py) (path : Path) : AuthRead → Except PyError (List AuthRecord)
  | .failed reason => .ok [invalidRecord path (lit "-") reason]
  | .data data =>
    match get data (lit "accounts") with
    | .arr _ =>
      let bundled := payloadRecords py path data
      if bundled ≠ [] then .ok (bundled.map Prod.fst)
      else (documentRecord py path data).map Option.toList
    | _ => (documentRecord py path data).map Option.toList

/-- `rank`: shallow files first, then by path. -/
def rankLE (a b : AuthRecord) : Bool :=
  a.path.length < b.path.length ||
    (a.path.length = b.path.length && decide (pathText a.path ≤ pathText b.path))

/-- The key under which a record is kept: its `codexx_account`, or its path. -/
def dedupKey (r : AuthRecord) : Str :=
  if strip r.codexxAccount = [] then pathText r.path else lit "codexx:" ++ strip r.codexxAccount

/-- The first record of each key that is not in `seen`. -/
def keepFirst : List Str → List AuthRecord → List AuthRecord
  | _, [] => []
  | seen, r :: rest =>
    if dedupKey r ∈ seen then keepFirst seen rest else r :: keepFirst (dedupKey r :: seen) rest

/-- The records of all files, in the order they were read. -/
def allRecords (py : Py) : List (Path × AuthRead) → Except PyError (List AuthRecord)
  | [] => .ok []
  | (path, content) :: rest => do
    let records ← fileRecords py path content
    let more ← allRecords py rest
    return records ++ more

/-- `scan_auth_records` on the files it has read. The depth of a file counts the components below
the auth directory, which all files share. -/
def scanAuthRecords (py : Py) (reads : List (Path × AuthRead)) : Except PyError (List AuthRecord) := do
  let records ← allRecords py reads
  return (keepFirst [] (records.insertionSort fun a b => rankLE a b)).insertionSort
    fun a b => pathText a.path ≤ pathText b.path

/-- `_parse_time` -/
def parseTime (py : Py) (raw : Str) : Option ℚ :=
  let value := strip raw
  if value = [] then none
  else if endsWith value (lit "Z") then py.fromisoformat (value.dropLast ++ lit "+00:00")
  else py.fromisoformat value

/-- `static_failure_reason` at the time `now`: the reason, and whether it is permanent. -/
def staticFailureReason (py : Py) (now : ℚ) (record : AuthRecord) : Str × Bool :=
  match record.status with
  | .invalid reason => (if reason = [] then lit "invalid-auth-json" else reason, true)
  | .active =>
    if record.disabled then (lit "disabled", false)
    else if record.hasAgentIdentity then (lit "unknown", false)
    else if !record.hasAccessToken && !record.hasRefreshToken then
      (lit "missing-refresh-and-access-token", true)
    else match parseTime py record.expiresAt with
      | some expiresAt =>
        if expiresAt ≤ now ∧ !record.hasRefreshToken then (lit "expired-without-refresh-token", true)
        else (lit "unknown", false)
      | none => (lit "unknown", false)

/-! ### Probe contexts -/

/-- A context of `auth_contexts`. -/
structure Context where
  stateKey : Str
  path : Path
  record : AuthRecord
  payload : Dict
deriving DecidableEq

/-- The contexts of one file, from number `index` on. -/
def contextsOf (authDir path : Path) : ℕ → List (AuthRecord × Dict) → List Context
  | _, [] => []
  | index, (record, payload) :: rest =>
    let selector := if record.bundleAccount ≠ [] then record.bundleAccount
      else if record.name ≠ [] then record.name else decimal index
    ⟨lit "cliproxy:api:" ++ posix (path.drop authDir.length) ++ lit "#" ++ selector, path, record,
      payload⟩ :: contextsOf authDir path (index + 1) rest

/-- `auth_contexts` of the proxy account `api` on the files it has read. -/
def authContexts (py : Py) (authDir : Path) (reads : List (Path × AuthRead)) : List Context :=
  (reads.flatMap fun x => match x.2 with
    | .failed _ => []
    | .data data => contextsOf authDir x.1 1 (payloadRecords py x.1 data)).insertionSort
    fun a b => a.stateKey ≤ b.stateKey

end Cloudx.Cloud.Auth
