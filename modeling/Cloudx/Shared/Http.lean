import Cloudx.Lib.Memo
import Cloudx.Python.Value

/-! # Requests and their answers

What a probe sends and what can come back. The opener is any function from requests to answers: a
reply with its status and body, an HTTP error, whose body may fail to be read, or another exception.

`Reason` are the reasons for which a probe calls an authentication failure permanent, which the cloud
and the local package spell alike. -/

namespace Cloudx.Shared.Http

open Cloudx.Python.Text Cloudx.Python.Value

/-- A `GET` request. -/
structure Request where
  endpoint : Str
  headers : List (Str × Str)
deriving DecidableEq

/-- The outcome of a request. -/
inductive Answer where
  | reply (status : ℤ) (body : Bytes)
  | httpError (code : ℤ) (body : Option Bytes)
  | raised
deriving DecidableEq

/-- `url_opener` -/
abbrev Opener := Request → Answer

/-- `USAGE_ENDPOINT_CHATGPT` -/
def usageEndpointChatgpt : Str := lit "https://chatgpt.com/backend-api/wham/usage"

/-- `USAGE_ENDPOINT_CODEXAPI` -/
def usageEndpointCodexapi : Str := lit "https://api.openai.com/api/codex/usage"

/-- The reasons of permanent authentication failures. -/
inductive Reason where
  | deactivatedWorkspace
  | accountDeactivated
  | refreshTokenReused
  | refreshInvalidGrant
  | refreshTokenRevoked
  | missingToken
  | authenticationUnauthorized
deriving DecidableEq

/-- The text of a reason. -/
def Reason.text : Reason → Str
  | .deactivatedWorkspace => lit "deactivated_workspace"
  | .accountDeactivated => lit "account_deactivated"
  | .refreshTokenReused => lit "refresh_token_reused"
  | .refreshInvalidGrant => lit "refresh_invalid_grant"
  | .refreshTokenRevoked => lit "refresh_token_revoked"
  | .missingToken => lit "missing_token"
  | .authenticationUnauthorized => lit "authentication_unauthorized"

/-- `sorted(set(reasons))[0]` -/
def firstReason : List Reason → Option Reason
  | [] => none
  | r :: rest => match firstReason rest with
    | none => some r
    | some s => if r.text ≤ s.text then some r else some s

theorem firstReason_ne_nil {rs : List Reason} (h : rs ≠ []) : ∃ r, firstReason rs = some r := by
  obtain ⟨r, rest, rfl⟩ := List.exists_cons_of_ne_nil h
  unfold firstReason
  split
  · exact ⟨r, rfl⟩
  · split_ifs
    · exact ⟨_, rfl⟩
    · exact ⟨_, rfl⟩

/-- The headers of a usage request, the same in both packages. -/
def usageHeaders (endpoint accessToken accountId : Str) : List (Str × Str) :=
  [(lit "Authorization", lit "Bearer " ++ accessToken), (lit "Accept", lit "application/json"),
    (lit "User-Agent", lit "codex-cli"), (lit "OpenAI-Beta", lit "codex=v1")] ++
  (if startsWith endpoint (lit "https://chatgpt.com/") then
    [(lit "Origin", lit "https://chatgpt.com"), (lit "Referer", lit "https://chatgpt.com/")]
  else []) ++
  (if accountId ≠ [] then [(lit "ChatGPT-Account-Id", accountId)] else [])

/-! ### Bodies of failures -/

/-- `MAX_USAGE_RESPONSE_BYTES`, `MAX_RESPONSE_BYTES` -/
def maxResponseBytes : ℕ := 1024 * 1024

/-- `PERMANENT_AUTH_FAILURE_MARKERS`, `PERMANENT_MARKERS` -/
def permanentMarkers : List (Str × Reason) :=
  [(lit "deactivated_workspace", .deactivatedWorkspace),
    (lit "account_deactivated", .accountDeactivated),
    (lit "account has been deactivated", .accountDeactivated),
    (lit "account deactivated", .accountDeactivated),
    (lit "account has been disabled", .accountDeactivated),
    (lit "account disabled", .accountDeactivated),
    (lit "account deleted", .accountDeactivated),
    (lit "refresh_token_reused", .refreshTokenReused),
    (lit "refresh token reused", .refreshTokenReused),
    (lit "invalid_grant", .refreshInvalidGrant),
    (lit "refresh_token_revoked", .refreshTokenRevoked),
    (lit "refresh token revoked", .refreshTokenRevoked),
    (lit "token has been revoked", .refreshTokenRevoked),
    (lit "refresh token is required", .missingToken),
    (lit "missing refresh token", .missingToken)]

/-- `QUOTA_FAILURE_MARKERS`, `QUOTA_MARKERS` -/
def quotaMarkers : List Str :=
  [lit "weekly limit", lit "weekly quota", lit "usage_limit", lit "usage limit", lit "rate_limit",
    lit "rate limit", lit "quota", lit "too many requests"]

/-- `_bounded_error_body`, `_body`: the body of an HTTP error, or nothing. -/
def boundedErrorBody : Option Bytes → Bytes
  | none => []
  | some body => if maxResponseBytes < body.length then [] else body

/-- `body.decode("utf-8", "ignore").casefold()` -/
def foldedText (py : Py) (body : Bytes) : Str := py.casefold (py.decodeIgnore body)

/-- What the text of a failure says of its cause. -/
inductive Verdict where
  | quota
  | permanent (reason : Reason)
  | unknown
deriving DecidableEq

/-- `_body_classification`: the quota markers come before the permanent ones. -/
def bodyClassification (py : Py) (body : Bytes) : Verdict :=
  if quotaMarkers.any fun marker => contains marker (foldedText py body) then .quota
  else match permanentMarkers.find? fun m => contains m.1 (foldedText py body) with
    | some m => .permanent m.2
    | none => .unknown

/-- The status and the body with which an answer is classified as a failure, if it is. -/
def failureOf : Answer → Option (ℤ × Bytes)
  | .reply status body =>
    if 400 ≤ status ∧ body.length ≤ maxResponseBytes then some (status, body) else none
  | .httpError code body => some (code, boundedErrorBody body)
  | .raised => none

/-- A failure that condemns a credential: not of the quota, and either with a permanent marker or a
401 that no refresh can help. -/
structure Condemns (py : Py) (hasRefresh : Bool) (status : ℤ) (body : Bytes) : Prop where
  status_ne : status ≠ 429
  no_quota : ∀ marker ∈ quotaMarkers, contains marker (foldedText py body) = false
  cause : (∃ m ∈ permanentMarkers, contains m.1 (foldedText py body)) ∨
    (status = 401 ∧ hasRefresh = false)

/-- **A body is called permanent only if it has a permanent marker and no quota marker.** -/
theorem bodyClassification_permanent {py : Py} {body : Bytes} {reason : Reason}
    (h : bodyClassification py body = .permanent reason) :
    (∀ marker ∈ quotaMarkers, contains marker (foldedText py body) = false) ∧
      ∃ m ∈ permanentMarkers, m.2 = reason ∧ contains m.1 (foldedText py body) := by
  unfold bodyClassification at h
  split_ifs at h with hq
  refine ⟨by simpa using hq, ?_⟩
  split at h
  · next m hm =>
    exact ⟨m, List.mem_of_find?_eq_some hm, Verdict.permanent.inj h,
      by simpa using List.find?_some hm⟩
  · exact absurd h (by simp)

theorem bodyClassification_unknown {py : Py} {body : Bytes}
    (h : bodyClassification py body = .unknown) :
    ∀ marker ∈ quotaMarkers, contains marker (foldedText py body) = false := by
  unfold bodyClassification at h
  split_ifs at h with hq
  simpa using hq

/-! ### Transport -/

/-- The transport of a probe: the status that its first request comes back with. -/
inductive Gate where
  | reachable
  | providerError
  | transportError
deriving DecidableEq

/-- `probe_transport_http` and `transport_status` -/
def transport (opener : Opener) : Gate :=
  let status : Option ℤ := match opener ⟨usageEndpointChatgpt,
      [(lit "Accept", lit "application/json"), (lit "User-Agent", lit "codex-cli")]⟩ with
    | .reply status _ => some status
    | .httpError code _ => some code
    | .raised => none
  match status with
  | none => .transportError
  | some status => if status = 429 ∨ 500 ≤ status then .providerError else .reachable

end Cloudx.Shared.Http
