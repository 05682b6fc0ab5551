import Cloudx.Shared.Receipt
import Cloudx.Local.Probe

/-! # Maintenance of the local auth directory

`local_cpa_maintenance.py`: the static verdict on a file (`_record`), the scan of the directory, the
receipts of run-time failures and the candidates they make, and the trigger of a sweep
(`local_cpa_sweep.py`). -/

namespace Cloudx.Local.Maintenance

open Cloudx.Lib.Memo
open Cloudx.Python.Text Cloudx.Python.Value Cloudx.Python.Dump
open Cloudx.Shared Cloudx.Shared.Credential Cloudx.Shared.Receipt
open Cloudx.Local.Archive Cloudx.Local.Import

variable (py : Py)

/-! ### The static verdict -/

/-- `_parse_time`: a number, a text in ISO form or the text of a number. -/
def parseTime : Json → Option ℚ
  | .int n => (py.float n).bind fun q => py.fromtimestamp (.finite q)
  | .float x => py.fromtimestamp x
  | .str raw =>
    let value := isoText (strip raw)
    if strip raw = [] then none
    else match py.fromisoformat value with
      | some t => some t
      | none => (py.floatOfText value).bind py.fromtimestamp
  | _ => none

/-- `_auth_expiry`: a token is decoded only if the fields and tokens before it name no time. -/
def authExpiry (document : Dict) (tokens : Tokens) : Except PyError (Option ℚ) :=
  let named := pyOr (get document (lit "expired")) (pyOr (get document (lit "expiry"))
    (pyOr (get document (lit "auth_expires_at")) (get document (lit "expires_at"))))
  if truthy named then .ok (parseTime py named)
  else do
    let access := isoFromEpochZ py (get (← decodeJwtPayload py tokens.access) (lit "exp"))
    if access ≠ [] then return parseTime py (.str access)
    return parseTime py (.str (isoFromEpochZ py (get (← decodeJwtPayload py tokens.id) (lit "exp"))))

/-- The provider a document names. -/
def providerOf (document : Dict) : Str :=
  py.casefold (py.text [get document (lit "type"), get document (lit "provider")])

/-- The providers whose documents are scanned; a document may name none. -/
def scannedProviders : List Str := [[], lit "codex", lit "chatgpt", lit "openai"]

/-- The static reason of a document; none if it is not scanned. -/
def documentReason (now : ℚ) (document : Dict) : Except PyError (Option Str) :=
  if providerOf py document ∉ scannedProviders then .ok none
  else if AgentIdentity.isAgentIdentity py document then
    .ok (some (if AgentIdentity.isValid py document then [] else lit "invalid-agent-identity"))
  else
    let tokens := authTokens py document
    if !tokens.any then .ok (some (lit "missing-refresh-and-access-token"))
    else do
      let expiry ← authExpiry py document tokens
      if (expiry.any fun t => t ≤ now) && tokens.refresh = [] then
        return some (lit "expired-without-refresh-token")
      return some []

/-- `_record` of a file that was read. -/
def record (now : ℚ) (path : FileName) (file : File) : Except PyError (Option AuthRecord) :=
  if maxAuthFileBytes < file.bytes.length then .ok none
  else match file.content with
    | .raised e => .error e
    | .value (.obj document) =>
      (documentReason py now document).map (Option.map (⟨path, py.sha256 file.bytes, ·⟩))
    | _ => .ok (some ⟨path, py.sha256 file.bytes, lit "invalid-auth-json"⟩)

/-- `scan_active_auth` on what it has read of each file. -/
def scanActiveAuth (now : ℚ) : List (FileName × Option File) → Except PyError (List AuthRecord)
  | [] => .ok []
  | (_, none) :: rest => scanActiveAuth now rest
  | (path, some file) :: rest => do
    let found ← record py now path file
    let more ← scanActiveAuth now rest
    return found.toList ++ more

/-! ### Receipts and triggers -/

/-- `_receipt` -/
def receipt (now : ℚ) (entry : Entry) : Except PyError (Option Failure) :=
  Receipt.receipt py (parseTime py) now entry

/-- What `runtime_candidates` returns: the candidates, the rejected and the stale receipts. -/
structure Found where
  candidates : List ArchiveCandidate
  rejected : ℕ
  stale : ℕ
deriving DecidableEq

/-- `runtime_candidates` on the receipts it has read, in the order of their names. -/
def runtimeCandidates (now : ℚ) (records : List AuthRecord) :
    List (FileName × Entry) → Except PyError Found
  | [] => .ok ⟨[], 0, 0⟩
  | (path, entry) :: rest => do
    let document ← receipt py now entry
    let more ← runtimeCandidates now records rest
    match document with
    | none => return { more with rejected := more.rejected + 1 }
    | some found =>
      match records.find? fun r => r.path.text = found.authFile with
      | none => return { more with stale := more.stale + 1 }
      | some r =>
        if r.digest ≠ found.digest then return { more with stale := more.stale + 1 }
        return { more with
          candidates := ⟨r, lit "runtime-" ++ found.reason, some path⟩ :: more.candidates }

/-- `local_cpa_sweep.load` -/
def load (now : ℚ) (entry : Entry) : Except PyError (Option Trigger × TriggerStatus) :=
  loadTrigger py now entry

/-- The candidates of the static verdicts. -/
def staticCandidates (records : List AuthRecord) : List ArchiveCandidate :=
  (records.filter (·.staticReason ≠ [])).map fun r => ⟨r, r.staticReason, none⟩

/-- `[by_name[name] for name in sorted(by_name)]`: a static candidate replaces those of the receipts,
a later receipt the earlier ones. -/
def directCandidates (records : List AuthRecord) (runtime : List ArchiveCandidate) :
    List ArchiveCandidate :=
  records.filterMap fun r =>
    ((runtime ++ staticCandidates records).reverse.find? fun c => c.record.path = r.path)

/-! ### The records of a scan -/

variable {py}

/-- The record of a file carries its name and the digest of its bytes. -/
theorem record_path {now : ℚ} {path : FileName} {file : File} {r : AuthRecord}
    (h : record py now path file = .ok (some r)) : r.path = path ∧ r.digest = py.sha256 file.bytes := by
  unfold record at h
  split_ifs at h with hlong
  · exact absurd h (by simp)
  split at h
  · exact absurd h (by simp)
  · next document _ =>
    rcases hd : documentReason py now document with e | reason
    · rw [hd] at h; exact absurd h (by simp [Except.map])
    · rw [hd] at h
      obtain ⟨text, -, hr⟩ := Option.map_eq_some_iff.mp (Except.ok.inj h)
      rw [← hr]
      exact ⟨rfl, rfl⟩
  · rw [← Option.some.inj (Except.ok.inj h)]
    exact ⟨rfl, rfl⟩

/-- **A record of a scan is that of a file it has read, and every file has given its record.** -/
theorem mem_scanActiveAuth {now : ℚ} : ∀ {reads : List (FileName × Option File)}
    {records : List AuthRecord} {r : AuthRecord}, scanActiveAuth py now reads = .ok records →
      (r ∈ records ↔ ∃ file, (r.path, some file) ∈ reads ∧ record py now r.path file = .ok (some r))
  | [], records, r, h => by
    rw [← Except.ok.inj h]
    simp
  | (_, none) :: rest, records, r, h => by
    have hrest : scanActiveAuth py now rest = .ok records := h
    rw [mem_scanActiveAuth hrest]
    simp
  | (path, some file) :: rest, records, r, h => by
    obtain ⟨found, hfound, h⟩ := except_bind_ok h
    obtain ⟨more, hmore, h⟩ := except_bind_ok h
    rw [← Except.ok.inj h, List.mem_append, mem_scanActiveAuth hmore, Option.mem_toList]
    constructor
    · rintro (hr | ⟨f, hf, hr⟩)
      · rw [Option.mem_def.mp hr] at hfound
        obtain ⟨rfl, -⟩ := record_path hfound
        exact ⟨file, List.mem_cons_self, hfound⟩
      · exact ⟨f, List.mem_cons_of_mem _ hf, hr⟩
    · rintro ⟨f, hf, hr⟩
      rcases List.mem_cons.mp hf with he | hf
      · obtain ⟨hpath, hfile⟩ := Prod.mk.inj he
        rw [Option.some.inj hfile, hpath, hfound] at hr
        exact .inl (Option.mem_def.mpr (Except.ok.inj hr))
      · exact .inr ⟨f, hf, hr⟩

end Cloudx.Local.Maintenance
