import Cloudx.Python.Value

/-! # The tokens of a credential

How a JSON object holds its tokens and its account: in its own fields, or in those of a `token` or
`tokens` object. The cloud scanner, the cloud importer and the local package each have these
functions, in the same form. -/

namespace Cloudx.Shared.Credential

open Cloudx.Python.Text Cloudx.Python.Value

/-- Access, refresh and ID token. -/
structure Tokens where
  access : Str
  refresh : Str
  id : Str
deriving DecidableEq

/-- `any((access_token, refresh_token, id_token))` -/
def Tokens.any (t : Tokens) : Bool := t.access ≠ [] || t.refresh ≠ [] || t.id ≠ []

/-- A token of a document: its own field, or that of its `token` or `tokens`. -/
def authToken (py : Py) (data : Dict) (key : Str) : Str :=
  py.text [get data key, get (asDict (get data (lit "token"))) key,
    get (asDict (get data (lit "tokens"))) key]

/-- `auth_tokens`, `_auth_tokens`, `_tokens` -/
def authTokens (py : Py) (data : Dict) : Tokens :=
  ⟨authToken py data (lit "access_token"), authToken py data (lit "refresh_token"),
    authToken py data (lit "id_token")⟩

/-- `auth_account_id`, `_account_id` -/
def authAccountId (py : Py) (data : Dict) : Str :=
  py.text [get data (lit "account_id"), get data (lit "chatgpt_account_id"),
    get (asDict (get data (lit "token"))) (lit "account_id"),
    get (asDict (get data (lit "tokens"))) (lit "account_id")]

/-- `_decode_jwt_payload`, `_jwt_payload`; `ValueError` and its kinds are caught, other exceptions are not. -/
def decodeJwtPayload (py : Py) (token : Str) : Except PyError Dict :=
  if dots token < 2 then .ok []
  else match py.jwtSegment (((token.dropWhile (· ≠ 46)).drop 1).takeWhile (· ≠ 46)) with
    | .value (.obj d) => .ok d
    | .raised .recursion => .error .recursion
    | _ => .ok []

/-- `_iso_from_epoch` of the cloud package. -/
def isoFromEpoch (py : Py) : Json → Str
  | .int n => (py.isoFromEpoch (.int n)).getD []
  | .float x => (py.isoFromEpoch (.float x)).getD []
  | _ => []

/-- The claims of the ID token, or those of the access token. -/
def authClaim (accessPayload idPayload : Dict) : Dict :=
  match get idPayload (lit "https://api.openai.com/auth") with
  | .obj claim => claim
  | _ => asDict (get accessPayload (lit "https://api.openai.com/auth"))

/-- `flat[key] = payload[key]` for the keys that are there. -/
def copyKeys (payload : Dict) (keys : List Str) (flat : Dict) : Dict :=
  keys.foldl (fun flat key => setIf (has payload key) flat key (get payload key)) flat

/-! ### Reading a record back -/

theorem get_copyKeys_ne (payload : Dict) {k : Str} : ∀ {keys : List Str} {flat : Dict}, k ∉ keys →
    get (copyKeys payload keys flat) k = get flat k
  | [], _, _ => rfl
  | key :: keys, flat, h => by
    rw [List.mem_cons, not_or] at h
    have ih : get (copyKeys payload keys (setIf (has payload key) flat key (get payload key))) k =
        get (setIf (has payload key) flat key (get payload key)) k := get_copyKeys_ne payload h.2
    unfold copyKeys at ih ⊢
    rw [List.foldl_cons, ih, get_setIf_ne _ _ h.1]

/-- A document without token containers has the tokens of its fields. -/
theorem authToken_field {py : Py} {d : Dict} {key s : Str} (hget : get d key = .str s)
    (hs : strip s = s) (htoken : get d (lit "token") = .null) (htokens : get d (lit "tokens") = .null) :
    authToken py d key = s := by
  rw [authToken, hget, htoken, htokens]
  exact (text_str py s).trans hs

/-- Tokens without blanks at their ends. -/
def Tokens.Stripped (tokens : Tokens) : Prop :=
  strip tokens.access = tokens.access ∧ strip tokens.refresh = tokens.refresh ∧
    strip tokens.id = tokens.id

theorem stripped_authTokens (py : Py) (d : Dict) : (authTokens py d).Stripped :=
  ⟨strip_text py _, strip_text py _, strip_text py _⟩

/-- **The tokens of a record that holds them in its fields.** -/
theorem authTokens_fields {py : Py} {d : Dict} {tokens : Tokens} (h : tokens.Stripped)
    (haccess : get d (lit "access_token") = .str tokens.access)
    (hrefresh : get d (lit "refresh_token") = .str tokens.refresh)
    (hid : get d (lit "id_token") = .str tokens.id) (htoken : get d (lit "token") = .null)
    (htokens : get d (lit "tokens") = .null) : authTokens py d = tokens := by
  unfold authTokens
  rw [authToken_field haccess h.1 htoken htokens, authToken_field hrefresh h.2.1 htoken htokens,
    authToken_field hid h.2.2 htoken htokens]

/-- A record with no token fields has no tokens. -/
theorem authTokens_none {py : Py} {d : Dict} (h : ∀ key ∈ [lit "access_token", lit "refresh_token",
    lit "id_token", lit "token", lit "tokens"], get d key = .null) :
    authTokens py d = ⟨[], [], []⟩ := by
  have hnone : ∀ key ∈ [lit "access_token", lit "refresh_token", lit "id_token"],
      authToken py d key = [] := by
    intro key hkey
    rw [authToken, h key (List.mem_append_left [lit "token", lit "tokens"] hkey),
      h (lit "token") (by decide), h (lit "tokens") (by decide)]
    rfl
  unfold authTokens
  rw [hnone _ (by decide), hnone _ (by decide), hnone _ (by decide)]

end Cloudx.Shared.Credential
