import Cloudx.Lib.Memo
import Cloudx.Shared.AgentIdentity
import Cloudx.Shared.Credential

/-! # What a local JSON document holds

`local_cpa_import.py`: the flat record of a credential (`_flat_auth`) and the records of a document,
which may be a bundle of files, a list of accounts or one credential (`_expand_object`). The importer
and the prober share these functions.

`LocalImportError` is its code and message. -/

namespace Cloudx.Local.Import

open Cloudx.Lib.Memo
open Cloudx.Python.Text Cloudx.Python.Value
open Cloudx.Shared Cloudx.Shared.Credential

/-- `CLIPROXY_AUTH_BUNDLE_TYPE` -/
def cliproxyAuthBundleType : Str := lit "codexx-cliproxy-auth-bundle"

variable (py : Py)

/-- `_iso_from_epoch` of the local package, which writes UTC as `Z`. -/
def isoFromEpochZ (value : Json) : Str :=
  replace (lit "+00:00") (lit "Z") (isoFromEpoch py value)

/-- The fields of an entry that its credentials take over. -/
def carriedKeys : List Str :=
  [lit "name", lit "type", lit "provider", lit "last_refresh", lit "plan_type", lit "status",
    lit "source", lit "label"]

/-- `_sub2api_payload` of the local package. -/
def sub2apiPayload (entry : Dict) : Dict :=
  match get entry (lit "credentials") with
  | .obj credentials =>
    if credentials.isEmpty then []
    else
      let payload := setIf (truthy (get credentials (lit "expires_at")) &&
        !truthy (get credentials (lit "auth_expires_at"))) credentials (lit "auth_expires_at")
        (get credentials (lit "expires_at"))
      let payload := carriedKeys.foldl (fun payload key =>
        setIf (has entry key && !has payload key) payload key (get entry key)) payload
      let payload := setIf (truthy (get payload (lit "chatgpt_account_id")) &&
        !truthy (get payload (lit "account_id"))) payload (lit "account_id")
        (get payload (lit "chatgpt_account_id"))
      setIf (!truthy (get payload (lit "email")) &&
        (py.str (pyOrs [get entry (lit "name")])).contains 64) payload (lit "email")
        (get entry (lit "name"))
  | _ => []

/-- The payload of an entry: its credentials, or the entry itself. -/
def payloadOf (entry : Dict) : Dict :=
  if sub2apiPayload py entry = [] then entry else sub2apiPayload py entry

/-- The flat record of a payload with tokens. -/
def flatRecord (entry payload : Dict) (tokens : Tokens) (accessPayload idPayload : Dict) : Dict :=
  let email := py.text [get payload (lit "email"), get payload (lit "user_email"),
    get entry (lit "name"), get idPayload (lit "email"), get idPayload (lit "preferred_username")]
  let accountId := py.text [.str (authAccountId py payload),
    get (authClaim accessPayload idPayload) (lit "chatgpt_account_id")]
  let expiresAt := py.text [get payload (lit "expired"), get payload (lit "expiry"),
    get payload (lit "auth_expires_at"), get payload (lit "expires_at"),
    .str (isoFromEpochZ py (get accessPayload (lit "exp"))),
    .str (isoFromEpochZ py (get idPayload (lit "exp")))]
  let flat : Dict := [(lit "type", .str (lit "codex")),
    (lit "disabled", .bool (truthy (get payload (lit "disabled")))),
    (lit "websockets", .bool (truthy (get payload (lit "websockets")))),
    (lit "access_token", .str tokens.access), (lit "refresh_token", .str tokens.refresh),
    (lit "id_token", .str tokens.id), (lit "account_id", .str accountId)]
  let flat := setIf (email ≠ []) flat (lit "email") (.str email)
  let flat := setIf (expiresAt ≠ []) flat (lit "expired") (.str expiresAt)
  copyKeys payload [lit "last_refresh", lit "plan_type", lit "status", lit "source", lit "label"] flat

/-- `_flat_auth` -/
def flatAuth (entry : Dict) (label : Str) : Except PyError Dict :=
  let payload := payloadOf py entry
  if AgentIdentity.isAgentIdentity py payload then
    match AgentIdentity.normalize py payload [] [] with
    | .ok record => .ok record
    | .error message => .error (.refused "credential_invalid"
        (lit "Agent Identity credential is invalid: " ++ message))
  else
    let authType := py.casefold (py.text [get payload (lit "type"), get payload (lit "provider")])
    if sub2apiPayload py entry = [] ∧ authType ≠ [] ∧ authType ≠ lit "codex" then
      .error (.refused "unsupported_provider" (label ++ lit " is not a Codex credential"))
    else
      let tokens := authTokens py payload
      if !tokens.any then
        .error (.refused "credential_invalid" (label ++ lit " has no access, refresh, or ID token"))
      else do
        let accessPayload ← decodeJwtPayload py tokens.access
        let idPayload ← decodeJwtPayload py tokens.id
        return flatRecord py entry payload tokens accessPayload idPayload

/-- The records of the items of a bundle, from number `index` on. `item` finds the credential in an
item, and `kind` is what the labels call one. -/
def expandItems (label : Str) (kind : String) (item : Json → Option Dict) :
    ℕ → List Json → Except PyError (List Dict)
  | _, [] => .ok []
  | index, value :: rest =>
    let name := label ++ lit kind ++ decimal index
    match item value with
    | none => .error (.refused "credential_invalid" (name ++ lit " is invalid"))
    | some entry => do
      let record ← flatAuth py entry name
      let more ← expandItems label kind item (index + 1) rest
      return record :: more

/-- The `data` of an item of a bundle of files. -/
def dataOf : Json → Option Dict
  | .obj item => match get item (lit "data") with
    | .obj data => some data
    | _ => none
  | _ => none

/-- An account of a list. -/
def accountOf : Json → Option Dict
  | .obj item => some item
  | _ => none

/-- `_expand_object` -/
def expandObject (document : Dict) (label : Str) : Except PyError (List Dict) :=
  if get document (lit "type") = .str cliproxyAuthBundleType then
    match get document (lit "files") with
    | .arr (file :: files) =>
      expandItems py label " bundle entry " dataOf 1 (file :: files)
    | _ => .error (.refused "credential_invalid" (label ++ lit " has no auth bundle files"))
  else if has document (lit "accounts") then
    match get document (lit "accounts") with
    | .arr (account :: accounts) =>
      expandItems py label " account " accountOf 1 (account :: accounts)
    | _ => .error (.refused "credential_invalid" (label ++ lit " has no account entries"))
  else do
    let record ← flatAuth py document label
    return [record]

variable {py}

/-! ### Flat records -/

/-- The keys a flat record takes over from its payload. -/
def copiedKeys : List Str :=
  [lit "email", lit "expired", lit "last_refresh", lit "plan_type", lit "status", lit "source",
    lit "label"]

/-- Apart from what it takes over, a flat record has its type, two flags, the tokens and the account. -/
theorem get_flatRecord (entry payload : Dict) (tokens : Tokens) (accessPayload idPayload : Dict)
    {key : Str} (h : key ∉ copiedKeys) :
    get (flatRecord py entry payload tokens accessPayload idPayload) key =
      get [(lit "type", .str (lit "codex")),
        (lit "disabled", .bool (truthy (get payload (lit "disabled")))),
        (lit "websockets", .bool (truthy (get payload (lit "websockets")))),
        (lit "access_token", .str tokens.access), (lit "refresh_token", .str tokens.refresh),
        (lit "id_token", .str tokens.id),
        (lit "account_id", .str (py.text [.str (authAccountId py payload),
          get (authClaim accessPayload idPayload) (lit "chatgpt_account_id")]))] key := by
  simp only [copiedKeys, List.mem_cons, List.not_mem_nil, or_false, not_or] at h
  obtain ⟨h1, h2, h3, h4, h5, h6, h7⟩ := h
  unfold flatRecord
  rw [get_copyKeys_ne, get_setIf_ne _ _ h2, get_setIf_ne _ _ h1]
  simp only [List.mem_cons, List.not_mem_nil, or_false, not_or]
  exact ⟨h3, h4, h5, h6, h7⟩

/-- **The tokens of a flat record are those it was made with.** -/
theorem authTokens_flatRecord (entry payload : Dict) {tokens : Tokens} (h : tokens.Stripped)
    (accessPayload idPayload : Dict) :
    authTokens py (flatRecord py entry payload tokens accessPayload idPayload) = tokens := by
  apply authTokens_fields h
  · rw [get_flatRecord _ _ _ _ _ (by decide)]; rfl
  · rw [get_flatRecord _ _ _ _ _ (by decide)]; rfl
  · rw [get_flatRecord _ _ _ _ _ (by decide)]; rfl
  · rw [get_flatRecord _ _ _ _ _ (by decide)]; rfl
  · rw [get_flatRecord _ _ _ _ _ (by decide)]; rfl

/-- **What `_flat_auth` accepts**: an Agent Identity in its normal form, or a payload with tokens
whose payloads can be decoded. -/
theorem flatAuth_ok {entry record : Dict} {label : Str} (h : flatAuth py entry label = .ok record) :
    (AgentIdentity.isAgentIdentity py (payloadOf py entry) = true ∧
      AgentIdentity.Normalized py (payloadOf py entry) [] [] record) ∨
    (AgentIdentity.isAgentIdentity py (payloadOf py entry) = false ∧
      (authTokens py (payloadOf py entry)).any = true ∧
      ∃ accessPayload idPayload,
        decodeJwtPayload py (authTokens py (payloadOf py entry)).access = .ok accessPayload ∧
        decodeJwtPayload py (authTokens py (payloadOf py entry)).id = .ok idPayload ∧
        record = flatRecord py entry (payloadOf py entry) (authTokens py (payloadOf py entry))
          accessPayload idPayload) := by
  unfold flatAuth at h
  simp only at h
  by_cases hagent : AgentIdentity.isAgentIdentity py (payloadOf py entry) = true
  · rw [if_pos hagent] at h
    rcases hn : AgentIdentity.normalize py (payloadOf py entry) [] [] with message | form
    · rw [hn] at h; exact absurd h (by simp)
    · rw [hn] at h
      rw [← Except.ok.inj h]
      exact .inl ⟨hagent, AgentIdentity.normalize_ok hn⟩
  · rw [if_neg hagent] at h
    split_ifs at h with htype hany
    obtain ⟨accessPayload, haccess, h⟩ := except_bind_ok h
    obtain ⟨idPayload, hid, h⟩ := except_bind_ok h
    exact .inr ⟨by simpa using hagent, by simpa using hany, accessPayload, idPayload, haccess, hid,
      (Except.ok.inj h).symm⟩

/-- The label of an entry is only for its errors. -/
theorem flatAuth_label {entry record : Dict} {label : Str} (h : flatAuth py entry label = .ok record)
    (other : Str) : flatAuth py entry other = .ok record := by
  unfold flatAuth at h ⊢
  simp only at h ⊢
  by_cases hagent : AgentIdentity.isAgentIdentity py (payloadOf py entry) = true
  · rw [if_pos hagent] at h ⊢
    exact h
  · rw [if_neg hagent] at h ⊢
    split_ifs at h with htype hany
    rw [if_neg htype, if_neg hany]
    exact h

/-- The tokens of an accepted record: none for an Agent Identity, those of its payload otherwise. -/
theorem authTokens_flatAuth {entry record : Dict} {label : Str}
    (h : flatAuth py entry label = .ok record) : authTokens py record =
      if AgentIdentity.isAgentIdentity py (payloadOf py entry) then ⟨[], [], []⟩
      else authTokens py (payloadOf py entry) := by
  rcases flatAuth_ok h with ⟨hagent, hform⟩ | ⟨hagent, -, accessPayload, idPayload, -, -, rfl⟩
  · rw [if_pos hagent]
    refine authTokens_none fun key hkey => hform.rest key ?_
    have hkeys : ∀ k ∈ [lit "access_token", lit "refresh_token", lit "id_token", lit "token",
      lit "tokens"], k ∉ AgentIdentity.normalKeys := by decide
    exact hkeys key hkey
  · rw [if_neg (by simp [hagent])]
    exact authTokens_flatRecord entry _ (stripped_authTokens py _) accessPayload idPayload

/-- The records of the items of a bundle are those of its entries. -/
theorem expandItems_ok {label : Str} {kind : String} {item : Json → Option Dict} :
    ∀ {items : List Json} {index : ℕ} {records : List Dict},
      expandItems py label kind item index items = .ok records →
        List.Forall₂ (fun v r => ∃ entry, item v = some entry ∧ flatAuth py entry [] = .ok r)
          items records
  | [], _, records, h => by
    rw [← Except.ok.inj h]
    exact .nil
  | v :: rest, index, records, h => by
    unfold expandItems at h
    rcases hv : item v with _ | entry
    · simp only [hv] at h; exact absurd h (by simp)
    · simp only [hv] at h
      obtain ⟨record, hrecord, h⟩ := except_bind_ok h
      obtain ⟨more, hmore, h⟩ := except_bind_ok h
      rw [← Except.ok.inj h]
      exact .cons ⟨entry, hv, flatAuth_label hrecord []⟩ (expandItems_ok hmore)

theorem expandItems_of {label : Str} {kind : String} {item : Json → Option Dict} :
    ∀ {items : List Json} {records : List Dict} (index : ℕ),
      List.Forall₂ (fun v r => ∃ entry, item v = some entry ∧ flatAuth py entry [] = .ok r)
        items records → expandItems py label kind item index items = .ok records
  | [], _, _, .nil => rfl
  | v :: rest, record :: more, index, .cons ⟨entry, hv, hrecord⟩ hmore => by
    unfold expandItems
    simp only [hv, flatAuth_label hrecord _, expandItems_of (index + 1) hmore]
    rfl

end Cloudx.Local.Import
