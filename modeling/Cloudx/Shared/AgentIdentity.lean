import Cloudx.Lib.Memo
import Cloudx.Python.Value

/-! # Agent Identity credentials

`agent_identity.py`, which the cloud and the local package hold in the same form: which JSON objects
are Agent Identity credentials, and the normal form of a valid one. `AgentIdentityError` is its
message. -/

namespace Cloudx.Shared.AgentIdentity

open Cloudx.Lib.Memo
open Cloudx.Python.Text Cloudx.Python.Value

/-- `AUTH_MODE` -/
def authMode : Str := lit "agentIdentity"

/-- `_ED25519_PKCS8_PREFIX` -/
def ed25519Prefix : Bytes :=
  [0x30, 0x2e, 0x02, 0x01, 0x00, 0x30, 0x05, 0x06, 0x03, 0x2b, 0x65, 0x70, 0x04, 0x22, 0x04, 0x20]

/-- `_MAX_RUNTIME_ID` -/
def maxRuntimeId : ℕ := 256

variable (py : Py)

/-- `is_agent_identity` -/
def isAgentIdentity (data : Dict) : Bool :=
  py.casefold (py.text [get data (lit "auth_mode")]) = py.casefold authMode

/-- A text of at most `maximum` characters, none of them a control character. -/
def plainText (maximum : ℕ) (text : Str) : Bool :=
  text.length ≤ maximum && text.all fun c => 32 ≤ c && c ≠ 127

/-- `_required_text` -/
def requiredText (data : Dict) (key : Str) (maximum : ℕ) : Except Str Str :=
  match get data key with
  | .str value =>
    if strip value = [] then .error (key ++ lit " is required")
    else if plainText maximum (strip value) then .ok (strip value)
    else .error (key ++ lit " is invalid")
  | _ => .error (key ++ lit " is required")

/-- `_optional_text` -/
def optionalText (data : Dict) (key : Str) (maximum : ℕ) : Except Str Str :=
  match get data key with
  | .null => .ok []
  | .str value =>
    if value = [] then .ok []
    else if strip value ≠ [] ∧ plainText maximum (strip value) then .ok (strip value)
    else .error (key ++ lit " is invalid")
  | _ => .error (key ++ lit " is invalid")

/-- `_private_key` -/
def privateKey (data : Dict) : Except Str Str := do
  let encoded ← requiredText data (lit "agent_private_key") 256
  match py.b64decode encoded with
  | none => .error (lit "agent_private_key is not valid base64 PKCS#8")
  | some der =>
    if der.length = ed25519Prefix.length + 32 ∧ ed25519Prefix <+: der then pure encoded
    else .error (lit "agent_private_key is not an Ed25519 PKCS#8 private key")

/-- The optional fields of the normal form, with their limits. -/
def metadata : List (Str × ℕ) :=
  [(lit "chatgpt_account_id", 256), (lit "chatgpt_user_id", 256), (lit "workspace_id", 256),
    (lit "plan_type", 64), (lit "label", 256), (lit "source", 256)]

/-- `result[key] = value` for a text that is not empty. -/
def setText (d : Dict) (key value : Str) : Dict := if value = [] then d else set d key (.str value)

/-- The loop over `metadata`. -/
def copyMetadata (data : Dict) : List (Str × ℕ) → Dict → Except Str Dict
  | [], result => .ok result
  | (key, maximum) :: rest, result => do
    let value ← optionalText data key maximum
    copyMetadata data rest (setText result key value)

/-- The value of the first of two texts that is not empty. -/
def orText (a b : Str) : Str := if a = [] then b else a

/-- `normalize` -/
def normalize (data : Dict) (fallbackAccountId fallbackEmail : Str) : Except Str Dict := do
  if !isAgentIdentity py data then .error (lit "auth_mode is not agentIdentity")
  let runtimeId ← requiredText data (lit "agent_runtime_id") maxRuntimeId
  let key ← privateKey py data
  let disabled ← match data.lookup (lit "disabled") with
    | none => .ok false
    | some (.bool b) => .ok b
    | some _ => .error (lit "disabled is invalid")
  let result : Dict := [(lit "type", .str (lit "codex")), (lit "auth_kind", .str (lit "oauth")),
    (lit "auth_mode", .str authMode), (lit "disabled", .bool disabled),
    (lit "websockets", .bool false), (lit "agent_runtime_id", .str runtimeId),
    (lit "agent_private_key", .str key)]
  -- `or` does not look at the second field when the first one is there
  let own ← optionalText data (lit "account_id") 256
  let chatgpt ← if own = [] then optionalText data (lit "chatgpt_account_id") 256 else .ok []
  let accountId := orText own (orText chatgpt (strip fallbackAccountId))
  let address ← optionalText data (lit "email") 320
  let email := orText address (strip fallbackEmail)
  let result ← copyMetadata data metadata
    (setText (setText result (lit "account_id") accountId) (lit "email") email)
  match get data (lit "chatgpt_account_is_fedramp") with
  | .null => .ok result
  | .bool b => .ok (set result (lit "chatgpt_account_is_fedramp") (.bool b))
  | _ => .error (lit "chatgpt_account_is_fedramp is invalid")

/-- `is_valid` -/
def isValid (data : Dict) : Bool := (normalize py data [] []).toBool

/-! ### What the functions read -/

theorem requiredText_set (d : Dict) {k key : Str} (h : key ≠ k) (v : Json) (maximum : ℕ) :
    requiredText (set d k v) key maximum = requiredText d key maximum := by
  rw [requiredText, requiredText, get_set_ne d h]

theorem optionalText_set (d : Dict) {k key : Str} (h : key ≠ k) (v : Json) (maximum : ℕ) :
    optionalText (set d k v) key maximum = optionalText d key maximum := by
  rw [optionalText, optionalText, get_set_ne d h]

/-- The accounts list of a document does not matter. -/
theorem isAgentIdentity_accounts (d : Dict) (v : Json) :
    isAgentIdentity py (set d (lit "accounts") v) = isAgentIdentity py d := by
  simp (disch := decide) only [isAgentIdentity, get_set_ne]

theorem normalize_accounts (d : Dict) (v : Json) (account email : Str) :
    normalize py (set d (lit "accounts") v) account email = normalize py d account email := by
  simp (disch := decide) only [normalize, privateKey, isAgentIdentity_accounts, requiredText_set,
    optionalText_set, get_set_ne, lookup_set_ne, copyMetadata, metadata]

/-! ### The normal form -/

/-- A stored text: absent if it is empty. -/
def stored (value : Str) : Json := if value = [] then .null else .str value

/-- The keys of the normal form. -/
def normalKeys : List Str :=
  [lit "type", lit "auth_kind", lit "auth_mode", lit "disabled", lit "websockets",
    lit "agent_runtime_id", lit "agent_private_key", lit "account_id", lit "email",
    lit "chatgpt_account_id", lit "chatgpt_user_id", lit "workspace_id", lit "plan_type",
    lit "label", lit "source", lit "chatgpt_account_is_fedramp"]

theorem get_setText_ne (d : Dict) {key k : Str} (h : k ≠ key) (value : Str) :
    get (setText d key value) k = get d k := by
  unfold setText
  split_ifs
  · rfl
  · exact get_set_ne d h _

theorem get_setText_self {d : Dict} {key : Str} (h : get d key = .null) (value : Str) :
    get (setText d key value) key = stored value := by
  unfold setText stored
  split_ifs
  · exact h
  · exact get_set_self d key _

/-- The loop over the metadata stores each text that is there and touches nothing else. -/
theorem copyMetadata_get {data : Dict} : ∀ {fields : List (Str × ℕ)} {result result' : Dict},
    (fields.map Prod.fst).Nodup → (∀ f ∈ fields, get result f.1 = .null) →
    copyMetadata data fields result = .ok result' →
      (∀ f ∈ fields, ∃ value, optionalText data f.1 f.2 = .ok value ∧
        get result' f.1 = stored value) ∧
      ∀ key ∉ fields.map Prod.fst, get result' key = get result key
  | [], result, result', _, _, h => by
    rw [Except.ok.inj h]
    exact ⟨by simp, fun _ _ => rfl⟩
  | (k, maximum) :: rest, result, result', hnd, hnull, h => by
    rw [List.map_cons, List.nodup_cons] at hnd
    unfold copyMetadata at h
    obtain ⟨value, hv, h⟩ := except_bind_ok h
    have hne : ∀ f ∈ rest, f.1 ≠ k := fun f hf he => hnd.1 (List.mem_map.mpr ⟨f, hf, he⟩)
    have hrest : ∀ f ∈ rest, get (setText result k value) f.1 = .null := fun f hf => by
      rw [get_setText_ne result (hne f hf), hnull f (List.mem_cons_of_mem _ hf)]
    obtain ⟨hmem, hother⟩ := copyMetadata_get hnd.2 hrest h
    refine ⟨fun f hf => ?_, fun key hkey => ?_⟩
    · rcases List.mem_cons.mp hf with rfl | hf
      · exact ⟨value, hv, by
          rw [hother k hnd.1, get_setText_self (hnull _ List.mem_cons_self)]⟩
      · exact hmem f hf
    · rw [List.map_cons, List.mem_cons, not_or] at hkey
      rw [hother key hkey.2, get_setText_ne result hkey.1]

/-- What the normal form of a credential holds. -/
structure Normalized (data : Dict) (fallbackAccountId fallbackEmail : Str) (result : Dict) : Prop where
  agent : isAgentIdentity py data
  runtime : ∃ s, requiredText data (lit "agent_runtime_id") maxRuntimeId = .ok s ∧
    get result (lit "agent_runtime_id") = .str s
  key : ∃ s, privateKey py data = .ok s ∧ get result (lit "agent_private_key") = .str s
  disabled : ∃ b, get result (lit "disabled") = .bool b
  mode : get result (lit "auth_mode") = .str authMode
  type : get result (lit "type") = .str (lit "codex")
  account : ∃ own chatgpt, optionalText data (lit "account_id") 256 = .ok own ∧
    (own = [] → optionalText data (lit "chatgpt_account_id") 256 = .ok chatgpt) ∧
    get result (lit "account_id") = stored (orText own (orText chatgpt (strip fallbackAccountId)))
  email : ∃ address, optionalText data (lit "email") 320 = .ok address ∧
    get result (lit "email") = stored (orText address (strip fallbackEmail))
  metadata : ∀ f ∈ metadata, ∃ value, optionalText data f.1 f.2 = .ok value ∧
    get result f.1 = stored value
  fedramp : get result (lit "chatgpt_account_is_fedramp") = .null ∨
    ∃ b, get result (lit "chatgpt_account_is_fedramp") = .bool b
  rest : ∀ key ∉ normalKeys, get result key = .null

theorem normalize_ok {py : Py} {data result : Dict} {account email : Str}
    (h : normalize py data account email = .ok result) : Normalized py data account email result := by
  unfold normalize at h
  by_cases hagent : isAgentIdentity py data
  swap
  · rw [if_pos (by simpa using hagent)] at h
    exact absurd h (by simp [bind, Except.bind])
  rw [if_neg (by simpa using hagent)] at h
  obtain ⟨-, -, h⟩ := except_bind_ok h
  obtain ⟨runtimeId, hruntime, h⟩ := except_bind_ok h
  obtain ⟨key, hkey, h⟩ := except_bind_ok h
  extract_lets next at h
  obtain ⟨disabled, h⟩ : ∃ b, next b = .ok result := by
    split at h
    · exact ⟨_, h⟩
    · exact ⟨_, h⟩
    · exact absurd h (by simp [bind, Except.bind])
  simp only [next] at h
  obtain ⟨own, hown, h⟩ := except_bind_ok h
  obtain ⟨chatgpt, hchatgpt, h⟩ : ∃ chatgpt, (own = [] →
      optionalText data (lit "chatgpt_account_id") 256 = .ok chatgpt) ∧ _ = Except.ok result := by
    split_ifs at h with hempty
    · obtain ⟨chatgpt, hc, h⟩ := except_bind_ok h
      exact ⟨chatgpt, fun _ => hc, h⟩
    · exact ⟨[], fun he => absurd he hempty, h⟩
  obtain ⟨address, haddress, h⟩ := except_bind_ok h
  obtain ⟨form, hform, h⟩ := except_bind_ok h
  -- the fields that are always there, then the account and the address
  generalize hbase : ([(lit "type", .str (lit "codex")), (lit "auth_kind", .str (lit "oauth")),
    (lit "auth_mode", .str authMode), (lit "disabled", .bool disabled),
    (lit "websockets", .bool false), (lit "agent_runtime_id", .str runtimeId),
    (lit "agent_private_key", .str key)] : Dict) = base at hform
  have hnull : ∀ k ∉ normalKeys.take 7, get base k = .null := fun k hk => by
    rw [← hbase]
    exact get_of_not_mem hk
  have hset : ∀ k, k ≠ lit "email" → k ≠ lit "account_id" → ∀ a e,
      get (setText (setText base (lit "account_id") a) (lit "email") e) k = get base k := by
    intro k he ha a e
    rw [get_setText_ne _ he, get_setText_ne _ ha]
  have hmetaNull : ∀ f ∈ metadata, ∀ a e,
      get (setText (setText base (lit "account_id") a) (lit "email") e) f.1 = .null := by
    have hkeys : ∀ f ∈ metadata, f.1 ≠ lit "email" ∧ f.1 ≠ lit "account_id" ∧
        f.1 ∉ normalKeys.take 7 := by decide
    intro f hf a e
    obtain ⟨h1, h2, h3⟩ := hkeys f hf
    rw [hset _ h1 h2, hnull _ h3]
  obtain ⟨hmeta, hother⟩ := copyMetadata_get (by decide) (fun f hf => hmetaNull f hf _ _) hform
  have hfed : get form (lit "chatgpt_account_is_fedramp") = .null := by
    rw [hother _ (by decide), hset _ (by decide) (by decide), hnull _ (by decide)]
  obtain ⟨hlast, hfedramp⟩ : (∀ k ≠ lit "chatgpt_account_is_fedramp", get result k = get form k) ∧
      (get result (lit "chatgpt_account_is_fedramp") = .null ∨
        ∃ b, get result (lit "chatgpt_account_is_fedramp") = .bool b) := by
    split at h
    · rw [← Except.ok.inj h]
      exact ⟨fun _ _ => rfl, .inl hfed⟩
    · next b _ =>
      rw [← Except.ok.inj h]
      exact ⟨fun k hk => get_set_ne form hk _, .inr ⟨b, get_set_self form _ _⟩⟩
    · exact absurd h (by simp)
  have hfixed : ∀ k ∈ normalKeys.take 7, get result k = get base k := by
    have hkeys : ∀ k ∈ normalKeys.take 7, k ≠ lit "chatgpt_account_is_fedramp" ∧
        k ∉ metadata.map Prod.fst ∧ k ≠ lit "email" ∧ k ≠ lit "account_id" := by decide
    intro k hk
    obtain ⟨h1, h2, h3, h4⟩ := hkeys k hk
    rw [hlast k h1, hother k h2, hset k h3 h4]
  refine ⟨hagent, ⟨runtimeId, hruntime, ?_⟩, ⟨key, hkey, ?_⟩, ⟨disabled, ?_⟩, ?_, ?_,
    ⟨own, chatgpt, hown, hchatgpt, ?_⟩, ⟨address, haddress, ?_⟩, fun f hf => ?_, hfedramp,
    fun k hk => ?_⟩
  · rw [hfixed _ (by decide), ← hbase]; rfl
  · rw [hfixed _ (by decide), ← hbase]; rfl
  · rw [hfixed _ (by decide), ← hbase]; rfl
  · rw [hfixed _ (by decide), ← hbase]; rfl
  · rw [hfixed _ (by decide), ← hbase]; rfl
  · rw [hlast _ (by decide), hother _ (by decide), get_setText_ne _ (by decide),
      get_setText_self (hnull _ (by decide))]
  · rw [hlast _ (by decide), hother _ (by decide), get_setText_self]
    rw [get_setText_ne _ (by decide), hnull _ (by decide)]
  · obtain ⟨value, hvalue, hget⟩ := hmeta f hf
    have hne : ∀ f ∈ metadata, f.1 ≠ lit "chatgpt_account_is_fedramp" := by decide
    exact ⟨value, hvalue, by rw [hlast _ (hne f hf), hget]⟩
  · have hkeys : normalKeys = normalKeys.take 7 ++ lit "account_id" :: lit "email" ::
        (metadata.map Prod.fst ++ [lit "chatgpt_account_is_fedramp"]) := by decide
    rw [hkeys] at hk
    simp only [List.mem_append, List.mem_cons, List.not_mem_nil, or_false, not_or] at hk
    obtain ⟨h1, h2, h3, h4, h5⟩ := hk
    rw [hlast k h5, hother k h4, hset k h3 h2, hnull k h1]

/-! ### The normal form is valid -/

theorem requiredText_ok {d : Dict} {key s : Str} {maximum : ℕ}
    (h : requiredText d key maximum = .ok s) : strip s = s ∧ s ≠ [] ∧ plainText maximum s := by
  unfold requiredText at h
  split at h
  · split_ifs at h with h1 h2
    rw [← Except.ok.inj h]
    exact ⟨strip_strip _, h1, h2⟩
  · exact absurd h (by simp)

theorem requiredText_of {d : Dict} {key s : Str} {maximum : ℕ} (hget : get d key = .str s)
    (h : strip s = s ∧ s ≠ [] ∧ plainText maximum s) : requiredText d key maximum = .ok s := by
  unfold requiredText
  rw [hget]
  simp only [h.1, if_neg h.2.1, if_pos h.2.2]

theorem optionalText_ok {d : Dict} {key s : Str} {maximum : ℕ}
    (h : optionalText d key maximum = .ok s) : strip s = s ∧ plainText maximum s := by
  have hnil : strip ([] : Str) = [] ∧ plainText maximum ([] : Str) = true :=
    ⟨rfl, by simp [plainText]⟩
  unfold optionalText at h
  split at h
  · rw [← Except.ok.inj h]; exact hnil
  · split_ifs at h with h1 h2
    · rw [← Except.ok.inj h]; exact hnil
    · rw [← Except.ok.inj h]
      exact ⟨strip_strip _, h2.2⟩
  · exact absurd h (by simp)

/-- A stored text is read back if it is plain, and refused otherwise. -/
theorem optionalText_stored {d : Dict} {key s : Str} {maximum : ℕ} (hget : get d key = stored s)
    (hs : strip s = s) : (∃ v, optionalText d key maximum = .ok v) ↔ plainText maximum s := by
  unfold optionalText
  rw [hget, stored]
  by_cases hempty : s = []
  · rw [if_pos hempty, hempty]
    exact iff_of_true ⟨[], rfl⟩ (by simp [plainText])
  · rw [if_neg hempty]
    simp only [if_neg hempty, hs]
    by_cases hp : plainText maximum s
    · exact iff_of_true ⟨s, by rw [if_pos ⟨hempty, hp⟩]⟩ hp
    · refine iff_of_false ?_ hp
      rintro ⟨v, hv⟩
      rw [if_neg (fun h => hp h.2)] at hv
      exact absurd hv (by simp)

theorem copyMetadata_returns {data : Dict} : ∀ {fields : List (Str × ℕ)} {result : Dict},
    (∀ f ∈ fields, ∃ v, optionalText data f.1 f.2 = .ok v) →
      ∃ result', copyMetadata data fields result = .ok result'
  | [], result, _ => ⟨result, rfl⟩
  | f :: rest, result, h => by
    obtain ⟨v, hv⟩ := h f List.mem_cons_self
    rw [copyMetadata, hv]
    exact copyMetadata_returns fun f' hf' => h f' (List.mem_cons_of_mem f hf')

theorem lookup_of_get {d : Dict} {key : Str} {v : Json} (h : get d key = v) (hv : v ≠ .null) :
    d.lookup key = some v := by
  unfold Python.Value.get at h
  rcases hl : d.lookup key with _ | w
  · rw [hl] at h; exact absurd h.symm hv
  · rw [hl] at h; exact congrArg some h

theorem strip_orText {a b : Str} (ha : strip a = a) (hb : strip b = b) :
    strip (orText a b) = orText a b := by
  unfold orText; split_ifs
  · exact hb
  · exact ha

variable {py} {data result : Dict} {fallbackAccountId fallbackEmail : Str}

/-- What has no `auth_mode` is no Agent Identity. -/
theorem not_agent_of_mode {d : Dict} (h : get d (lit "auth_mode") = .null) :
    AgentIdentity.isAgentIdentity py d = false := by
  have htext : py.text [get d (lit "auth_mode")] = [] := by rw [h]; rfl
  rw [AgentIdentity.isAgentIdentity, htext, py.casefold_ascii [] (by simp),
    py.casefold_ascii _ (by decide)]
  decide

theorem Normalized.isAgentIdentity (h : Normalized py data fallbackAccountId fallbackEmail result) :
    AgentIdentity.isAgentIdentity py result := by
  have hstrip : strip authMode = authMode := by decide
  rw [AgentIdentity.isAgentIdentity, h.mode, text_str, hstrip]
  exact decide_eq_true rfl

/-- A normal form is normalised exactly when its account and its address are plain: its other fields
have passed their checks. -/
theorem Normalized.returns_iff (h : Normalized py data fallbackAccountId fallbackEmail result)
    (account email : Str) : (∃ form, normalize py result account email = .ok form) ↔
      (∃ v, optionalText result (lit "account_id") 256 = .ok v) ∧
        ∃ v, optionalText result (lit "email") 320 = .ok v := by
  constructor
  · rintro ⟨form, hn⟩
    obtain ⟨own, _, hown, -⟩ := (normalize_ok hn).account
    obtain ⟨address, haddress, -⟩ := (normalize_ok hn).email
    exact ⟨⟨own, hown⟩, address, haddress⟩
  · rintro ⟨⟨own, hown⟩, address, haddress⟩
    obtain ⟨runtimeId, hruntime, hgetRuntime⟩ := h.runtime
    obtain ⟨key, hkey, hgetKey⟩ := h.key
    obtain ⟨disabled, hdisabled⟩ := h.disabled
    have hmeta : ∀ f ∈ AgentIdentity.metadata, ∃ v, optionalText result f.1 f.2 = .ok v := by
      intro f hf
      obtain ⟨value, hvalue, hget⟩ := h.metadata f hf
      obtain ⟨hs, hp⟩ := optionalText_ok hvalue
      exact (optionalText_stored hget hs).mpr hp
    obtain ⟨chatgpt, hchatgpt⟩ := hmeta (lit "chatgpt_account_id", 256) (by decide)
    have hprivate : privateKey py result = .ok key := by
      unfold privateKey at hkey ⊢
      obtain ⟨encoded, hencoded, hrest⟩ := except_bind_ok hkey
      have hsame : encoded = key := by
        split at hrest
        · exact absurd hrest (by simp)
        · split_ifs at hrest
          exact Except.ok.inj hrest
      rw [hsame] at hencoded hrest
      rw [requiredText_of hgetKey (requiredText_ok hencoded)]
      exact hrest
    have hloop : ∀ form, ∃ form', copyMetadata result AgentIdentity.metadata form = .ok form' :=
      fun form => copyMetadata_returns hmeta
    unfold normalize
    rw [if_neg (by simpa using h.isAgentIdentity), hprivate,
      requiredText_of hgetRuntime (requiredText_ok hruntime),
      lookup_of_get hdisabled (by simp), hown]
    simp only [bind, Except.bind]
    by_cases hempty : own = []
    · rw [if_pos hempty, hchatgpt]
      simp only [haddress]
      generalize hx : copyMetadata result AgentIdentity.metadata _ = x
      obtain ⟨form, rfl⟩ : ∃ form, x = .ok form := hx ▸ hloop _
      rcases h.fedramp with hf | ⟨b, hf⟩
      · rw [hf]
        exact ⟨_, rfl⟩
      · rw [hf]
        exact ⟨_, rfl⟩
    · rw [if_neg hempty]
      simp only [haddress]
      generalize hx : copyMetadata result AgentIdentity.metadata _ = x
      obtain ⟨form, rfl⟩ : ∃ form, x = .ok form := hx ▸ hloop _
      rcases h.fedramp with hf | ⟨b, hf⟩
      · rw [hf]
        exact ⟨_, rfl⟩
      · rw [hf]
        exact ⟨_, rfl⟩

/-- **A normal form is valid exactly when its account and its address are plain.** -/
theorem Normalized.isValid_iff (h : Normalized py data fallbackAccountId fallbackEmail result) :
    isValid py result ↔ (∃ v, optionalText result (lit "account_id") 256 = .ok v) ∧
      ∃ v, optionalText result (lit "email") 320 = .ok v := by
  rw [← h.returns_iff [] [], isValid]
  rcases normalize py result [] [] with e | form
  · exact iff_of_false (by simp [Except.toBool]) (by simp)
  · exact iff_of_true rfl ⟨form, rfl⟩

/-- The account of a normal form is plain if it does not come from the fallback. -/
theorem Normalized.account_plain (h : Normalized py data fallbackAccountId fallbackEmail result) :
    (∃ v, optionalText result (lit "account_id") 256 = .ok v) ↔
      (optionalText data (lit "account_id") 256 = .ok [] →
        optionalText data (lit "chatgpt_account_id") 256 = .ok [] →
          plainText 256 (strip fallbackAccountId)) := by
  obtain ⟨own, chatgpt, hown, hchatgpt, hget⟩ := h.account
  obtain ⟨hstrip, hplain⟩ := optionalText_ok hown
  by_cases hempty : own = []
  · obtain ⟨hstrip', hplain'⟩ := optionalText_ok (hchatgpt hempty)
    have hfall : orText own (orText chatgpt (strip fallbackAccountId)) =
        orText chatgpt (strip fallbackAccountId) := by rw [orText, if_pos hempty]
    rw [hfall] at hget
    rw [optionalText_stored hget (strip_orText hstrip' (strip_strip _)), hown, hchatgpt hempty]
    by_cases hnone : chatgpt = []
    · rw [orText, if_pos hnone]
      exact ⟨fun hp _ _ => hp, fun hp => hp (by rw [hempty]) (by rw [hnone])⟩
    · rw [orText, if_neg hnone]
      exact iff_of_true hplain' fun _ hc => absurd (Except.ok.inj hc) hnone
  · rw [orText, if_neg hempty] at hget
    rw [optionalText_stored hget hstrip, hown]
    exact iff_of_true hplain fun ho => absurd (Except.ok.inj ho) hempty

/-- The address of a normal form is plain if it does not come from the fallback. -/
theorem Normalized.email_plain (h : Normalized py data fallbackAccountId fallbackEmail result) :
    (∃ v, optionalText result (lit "email") 320 = .ok v) ↔
      (optionalText data (lit "email") 320 = .ok [] → plainText 320 (strip fallbackEmail)) := by
  obtain ⟨address, haddress, hget⟩ := h.email
  obtain ⟨hstrip, hplain⟩ := optionalText_ok haddress
  rw [haddress]
  by_cases hempty : address = []
  · rw [orText, if_pos hempty] at hget
    rw [optionalText_stored hget (strip_strip _)]
    exact ⟨fun hp _ => hp, fun hp => hp (by rw [hempty])⟩
  · rw [orText, if_neg hempty] at hget
    rw [optionalText_stored hget hstrip]
    exact iff_of_true hplain fun ha => absurd (Except.ok.inj ha) hempty

/-- **Without fallbacks a normal form is valid.** -/
theorem Normalized.isValid (h : Normalized py data [] [] result) : isValid py result := by
  have hnil : ∀ maximum, plainText maximum (strip []) = true := fun maximum => by
    simp [plainText, strip]
  exact h.isValid_iff.mpr ⟨h.account_plain.mpr fun _ _ => hnil _, h.email_plain.mpr fun _ => hnil _⟩

end Cloudx.Shared.AgentIdentity
