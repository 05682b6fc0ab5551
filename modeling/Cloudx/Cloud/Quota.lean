import Cloudx.Shared.Http
import Cloudx.Cloud.Auth

/-! # Probing a cloud account

`cpa_quota.py`: one probe asks the usage endpoints about one credential and says whether it is ready,
short of quota, limited, in need of a login, or invalid. An invalid result is marked permanent and
carries its reason.

Times are seconds. A probe reads the clock when it starts and once more for an offset in the answer;
both readings are arguments. -/

namespace Cloudx.Cloud.Quota

open Cloudx.Lib.Memo
open Cloudx.Python.Text Cloudx.Python.Value
open Cloudx.Shared.Credential
open Cloudx.Shared.Http Cloudx.Cloud.Auth

/-- `USAGE_METHOD` -/
def usageMethod : Str := lit "http-usage"

/-- `WARNING_PERCENT_THRESHOLD` -/
def warningPercentThreshold : ℤ := 25

/-- `ACCESS_TOKEN_REFRESH_SKEW_SECONDS` -/
def accessTokenRefreshSkewSeconds : ℚ := 5 * 60

/-- `PERMANENT_AUTH_FAILURE_REASONS` -/
def permanentAuthFailureReasons : List Reason :=
  .authenticationUnauthorized :: permanentMarkers.map Prod.snd

/-- The two readings of the clock. -/
structure Clock where
  started : ℚ
  answered : ℚ

/-- The `status` of a result. -/
inductive ProbeStatus where
  | ready
  | warning
  | limited
  | login
  | invalid
deriving DecidableEq

/-- A result of `probe_account_quota_http`. -/
structure ProbeResult where
  status : ProbeStatus
  checkedAt : Str
  method : Str
  warning : Option Str
  warningPercent : Option ℤ
  warningWindow : Option Str
  unavailableUntil : Option Str
  exitCode : Option ℤ
  summary : Str
  statusLine : Option Str
  remainingPercent : Option ℤ
  remainingPercents : List ℤ
  quotaCheckedAt : Option Str
  endpoint : Option Str
  incomplete : Bool
  failureReason : Option Reason
  permanentAuthFailure : Bool
  weeklyQuota : Option Bool
deriving DecidableEq

variable (py : Py)

/-! ### Tokens -/

/-- `_token_supported` -/
def tokenSupported (token : Str) : Bool := 2 ≤ dots token

/-- `float(value) <= limit` for a number that is no `bool`; everything else is not. -/
def floatLE (limit : ℚ) : Json → Except PyError Bool
  | .int n => match py.float n with
    | some q => .ok (q ≤ limit)
    | none => .error .overflow
  | .float (.finite q) => .ok (q ≤ limit)
  | .float .negInf => .ok true
  | _ => .ok false

/-- `_token_needs_refresh` -/
def tokenNeedsRefresh (now : ℚ) (token : Str) : Except PyError Bool := do
  floatLE py (now + accessTokenRefreshSkewSeconds) (get (← decodeJwtPayload py token) (lit "exp"))

/-! ### Quota windows -/

/-- `_percent_or_none` -/
def percentOrNone : Json → Except PyError (Option ℤ)
  | .int n => .ok (some n)
  | .float (.finite q) => .ok (some (q.num.tdiv q.den))
  | .float .nan => .error .value
  | .float _ => .error .overflow
  | _ => .ok none

/-- `_clamp_percent` -/
def clampPercent (value : ℤ) : ℤ := min 100 (max 0 value)

/-- `_remaining_from_used` -/
def remainingFromUsed (used : ℤ) : ℤ := clampPercent (100 - used)

/-- `_remaining_percent` -/
def remainingPercent (window : Dict) : Except PyError (Option ℤ) := do
  if let some remaining ← percentOrNone (get window (lit "remaining_percent")) then
    return some (clampPercent remaining)
  if let some used ← percentOrNone (get window (lit "used_percent")) then
    return some (remainingFromUsed used)
  return (← percentOrNone (get window (lit "utilization"))).map remainingFromUsed

/-- `_used_percent` -/
def usedPercent (window : Dict) : Except PyError (Option ℤ) := do
  if let some used ← percentOrNone (get window (lit "used_percent")) then
    return some (clampPercent used)
  if let some utilization ← percentOrNone (get window (lit "utilization")) then
    return some (clampPercent utilization)
  return (← percentOrNone (get window (lit "remaining_percent"))).map remainingFromUsed

/-- `_window` -/
def window (rateLimit : Dict) : List Str → Dict
  | [] => []
  | key :: keys => match get rateLimit key with
    | .obj value => value
    | _ => window rateLimit keys

/-- A number greater than zero that is no `bool`. -/
def positive : Json → Bool
  | .int n => 0 < n
  | .float (.finite q) => 0 < q
  | .float .inf => true
  | _ => false

/-- `_iso(datetime.fromtimestamp(float(value), tz=timezone.utc))` -/
def isoAt (value : Json) : Except PyError (Option Str) :=
  match py.isoFromEpoch value with
  | some text => .ok (some text)
  | none => .error .overflow

/-- `now + float(offset)` -/
def after (now : ℚ) : Json → Except PyError Json
  | .int n => match py.float n with
    | some q => .ok (.float (.finite (now + q)))
    | none => .error .overflow
  | .float (.finite q) => .ok (.float (.finite (now + q)))
  | value => .ok value

/-- The loop over the two offsets of `_unavailable_until`. -/
def afterOffset (now : ℚ) (window : Dict) : List Str → Except PyError (Option Str)
  | [] => .ok none
  | key :: keys =>
    if positive (get window key) then do isoAt py (← after py now (get window key))
    else afterOffset now window keys

/-- `_unavailable_until` -/
def unavailableUntil (now : ℚ) (window : Dict) : Except PyError (Option Str) :=
  if positive (get window (lit "reset_at")) then isoAt py (get window (lit "reset_at"))
  else
    let offsets := afterOffset py now window [lit "reset_after_seconds", lit "retry_after_seconds"]
    match get window (lit "resets_at") with
    | .str text => if strip text ≠ [] then .ok (some (strip text)) else offsets
    | _ => offsets

/-- `_unavailable_until(a) or _unavailable_until(b)`; a text it returns is not empty. -/
def unavailableUntilOr (now : ℚ) (a b : Dict) : Except PyError (Option Str) := do
  match ← unavailableUntil py now a with
  | some text => return some text
  | none => unavailableUntil py now b

/-! ### Results -/

/-- `"…%d…" % value` for a percentage. -/
def withPercent (before : String) (value : ℤ) (behind : String) : Str :=
  lit before ++ decimal value.natAbs ++ lit behind

/-- `" · ".join(parts)` -/
def joined (parts : List Str) : Str := (lit " · ").intercalate parts

/-- A part of `summary`: how much is used, or how much is left. -/
def usagePart (usedText leftText : String) (used remaining : Option ℤ) : List Str :=
  match used, remaining with
  | some n, _ => [withPercent usedText n "%"]
  | none, some n => [withPercent leftText n "%"]
  | none, none => []

/-- `value is not None and value <= bound` -/
def atMost (bound : ℤ) : Option ℤ → Bool
  | some n => n ≤ bound
  | none => false

/-- What the windows say: the status, the warning's percentage and window, and the time from which
the account is available again. -/
structure Outlook where
  status : ProbeStatus
  percent : Option ℤ
  window : Option Str
  availableAt : Option Str

/-- The branches of `_build_probe_success`. -/
def outlook (clock : Clock) (rateLimit primary secondary : Dict)
    (primaryRemaining secondaryRemaining : Option ℤ) : Except PyError Outlook :=
  let reachedType := py.lower (py.text [get rateLimit (lit "rate_limit_reached_type")])
  let primaryExhausted := atMost 0 primaryRemaining
  let secondaryExhausted := atMost 0 secondaryRemaining
  if truthy (get rateLimit (lit "limit_reached")) || primaryExhausted || secondaryExhausted then
    if reachedType = lit "secondary" ∨
        (secondaryExhausted ∧ primaryRemaining ≠ none ∧ primaryRemaining ≠ some 0) then do
      return ⟨.limited, secondaryRemaining, some (lit "7d"),
        ← unavailableUntilOr py clock.answered secondary primary⟩
    else if primaryExhausted then do
      return ⟨.limited, primaryRemaining, some (lit "5h"),
        ← unavailableUntilOr py clock.answered primary secondary⟩
    else do
      return ⟨.limited, secondaryRemaining, some (lit "7d"),
        ← unavailableUntilOr py clock.answered secondary primary⟩
  else if atMost warningPercentThreshold primaryRemaining then
    .ok ⟨.warning, primaryRemaining, some (lit "5h"), none⟩
  else if atMost warningPercentThreshold secondaryRemaining then
    .ok ⟨.warning, secondaryRemaining, some (lit "7d"), none⟩
  else .ok ⟨.ready, none, none, none⟩

/-- `_build_probe_success` -/
def buildProbeSuccess (clock : Clock) (payload : Dict) (endpoint : Str) :
    Except PyError ProbeResult := do
  let rateLimit := match get payload (lit "rate_limit") with
    | .obj rateLimit => rateLimit
    | _ => payload
  let primary := window rateLimit [lit "primary_window", lit "short_window", lit "five_hour"]
  let secondary := window rateLimit [lit "secondary_window", lit "weekly_window", lit "seven_day"]
  let primaryRemaining ← remainingPercent primary
  let secondaryRemaining ← remainingPercent secondary
  let primaryUsed ← usedPercent primary
  let secondaryUsed ← usedPercent secondary
  let remainingPercents := primaryRemaining.toList ++ secondaryRemaining.toList
  let statusParts := (primaryRemaining.map (withPercent "5h " · "% left")).toList ++
    (secondaryRemaining.map (withPercent "weekly " · "% left")).toList
  let statusLine := if statusParts = [] then none else some (joined statusParts)
  let view ← outlook py clock rateLimit primary secondary primaryRemaining secondaryRemaining
  let summaryParts := usagePart "5h used " "5h left " primaryUsed primaryRemaining ++
    usagePart "weekly used " "weekly left " secondaryUsed secondaryRemaining
  return {
    status := view.status
    checkedAt := py.isoformat clock.started
    method := usageMethod
    warning := if view.status = .ready then none else statusLine
    warningPercent := view.percent
    warningWindow := view.window
    unavailableUntil := view.availableAt
    exitCode := some 200
    summary := if summaryParts = [] then lit "usage endpoint returned no quota data"
      else joined summaryParts
    statusLine := statusLine
    remainingPercent := primaryRemaining
    remainingPercents := remainingPercents
    quotaCheckedAt := if remainingPercents = [] then none else some (py.isoformat clock.started)
    endpoint := some endpoint
    incomplete := remainingPercents = []
    failureReason := none
    permanentAuthFailure := false
    weeklyQuota := none }

/-- `_build_probe_error`, with the endpoint that its callers add. -/
def buildProbeError (clock : Clock) (status : ProbeStatus) (summary : String) (exitCode : Option ℤ)
    (endpoint : Option Str) : ProbeResult where
  status := status
  checkedAt := py.isoformat clock.started
  method := usageMethod
  warning := none
  warningPercent := none
  warningWindow := none
  unavailableUntil := none
  exitCode := exitCode
  summary := lit summary
  statusLine := none
  remainingPercent := none
  remainingPercents := []
  quotaCheckedAt := none
  endpoint := endpoint
  incomplete := false
  failureReason := none
  permanentAuthFailure := false
  weeklyQuota := none

/-- `result.update(…)` of a permanent failure. -/
def markPermanent (result : ProbeResult) (reason : Reason) : ProbeResult :=
  { result with
    failureReason := some reason
    permanentAuthFailure := true
    weeklyQuota := some false }

/-! ### Probing -/

/-- `status_code or None` -/
def codeOrNone (statusCode : ℤ) : Option ℤ := if statusCode = 0 then none else some statusCode

/-- `_classified_http_failure` -/
def classifiedHttpFailure (clock : Clock) (endpoint : Str) (hasRefreshToken : Bool)
    (statusCode : ℤ) (body : Bytes) : Option ProbeResult :=
  let failed := fun status summary code => buildProbeError py clock status summary code (some endpoint)
  if statusCode = 429 ∨ bodyClassification py body = .quota then
    some (failed .limited "usage endpoint reported exhausted or rate-limited capacity"
      (codeOrNone statusCode))
  else match bodyClassification py body with
    | .permanent reason =>
      some (markPermanent (failed .invalid
        "usage endpoint reported a permanent authentication failure" (codeOrNone statusCode)) reason)
    | _ =>
      if statusCode = 401 then
        if hasRefreshToken then
          some (failed .login "usage endpoint rejected the access token before refresh"
            (some statusCode))
        else
          some (markPermanent (failed .invalid
            "usage endpoint rejected a credential without refresh capability" (some statusCode))
            .authenticationUnauthorized)
      else none

/-- `_endpoint_candidates` -/
def endpointCandidates (auth : Dict) : List Str :=
  let mode := py.lower (py.text [get auth (lit "auth_mode")])
  if mode = [] ∨ mode = lit "chatgpt" ∨ mode = lit "chatgptauthtokens" then
    [usageEndpointChatgpt, usageEndpointCodexapi]
  else [usageEndpointCodexapi, usageEndpointChatgpt]

/-- The body of the loop over the endpoints on an answer; nothing stands for `continue`. -/
def judgeAnswer (clock : Clock) (endpoint : Str) (hasRefreshToken : Bool) :
    Answer → Except PyError (Option ProbeResult)
  | .raised => .ok none
  | .httpError code body =>
    .ok (classifiedHttpFailure py clock endpoint hasRefreshToken code (boundedErrorBody body))
  | .reply statusCode body =>
    if maxResponseBytes < body.length then .ok none
    else if 400 ≤ statusCode then
      .ok (classifiedHttpFailure py clock endpoint hasRefreshToken statusCode body)
    else match py.loads body with
      | .raised e => .error e
      | .value (.obj payload) => (buildProbeSuccess py clock payload endpoint).map some
      | _ => .ok none

/-- The body of the loop over the endpoints. -/
def attempt (opener : Opener) (clock : Clock) (auth : Dict) (endpoint : Str) :
    Except PyError (Option ProbeResult) :=
  let tokens := authTokens py auth
  judgeAnswer py clock endpoint (tokens.refresh ≠ [])
    (opener ⟨endpoint, usageHeaders endpoint tokens.access (authAccountId py auth)⟩)

/-- `probe_account_quota_http` -/
def probeAccountQuotaHttp (opener : Opener) (clock : Clock) (auth : Dict) :
    Except PyError (Option ProbeResult) :=
  let tokens := authTokens py auth
  if !tokenSupported tokens.access then .ok none
  else do
    if ← tokenNeedsRefresh py clock.started tokens.access then
      if tokens.refresh ≠ [] then
        return some (buildProbeError py clock .login "access token needs refresh" none none)
      else
        return some (markPermanent (buildProbeError py clock .invalid
          "access token expired without refresh capability" none none) .missingToken)
    else firstResult (attempt py opener clock auth) (endpointCandidates py auth)

/-! ### Permanent results -/

/-- A result of a failure that is marked permanent, with a reason that allows to archive. -/
structure IsPermanent (result : ProbeResult) : Prop where
  status : result.status = .invalid
  marked : result.permanentAuthFailure = true
  weekly : result.weeklyQuota = some false
  reason : ∃ r ∈ permanentAuthFailureReasons, result.failureReason = some r

variable {py} {opener : Opener} {clock : Clock} {auth : Dict} {endpoint : Str} {result : ProbeResult}

theorem isPermanent_markPermanent {summary : String} {code : Option ℤ} {place : Option Str}
    {reason : Reason} (h : reason ∈ permanentAuthFailureReasons) :
    IsPermanent (markPermanent (buildProbeError py clock .invalid summary code place) reason) :=
  ⟨rfl, rfl, rfl, reason, h, rfl⟩

/-- **A failure is called permanent only if it condemns the credential.** -/
theorem classifiedHttpFailure_permanent {hasRefresh : Bool} {status : ℤ} {body : Bytes}
    (h : classifiedHttpFailure py clock endpoint hasRefresh status body = some result)
    (hp : result.permanentAuthFailure = true) :
    IsPermanent result ∧ Condemns py hasRefresh status body := by
  unfold classifiedHttpFailure at h
  simp only at h
  by_cases h429 : status = 429 ∨ bodyClassification py body = .quota
  · rw [if_pos h429] at h
    rw [← Option.some.inj h] at hp
    exact absurd hp (by simp [buildProbeError])
  · rw [if_neg h429] at h
    rw [not_or] at h429
    split at h
    · next reason hb =>
      obtain ⟨hq, m, hm, rfl, hc⟩ := bodyClassification_permanent hb
      rw [← Option.some.inj h]
      exact ⟨isPermanent_markPermanent
          (List.mem_cons_of_mem _ (List.mem_map_of_mem (f := Prod.snd) hm)),
        h429.1, hq, .inl ⟨m, hm, hc⟩⟩
    · next hother =>
      have hunknown : bodyClassification py body = .unknown := by
        cases hb : bodyClassification py body with
        | quota => exact absurd hb h429.2
        | permanent reason => exact absurd hb (hother reason)
        | unknown => rfl
      split_ifs at h with h401 hr
      · rw [← Option.some.inj h] at hp
        exact absurd hp (by simp [buildProbeError])
      · rw [← Option.some.inj h]
        exact ⟨isPermanent_markPermanent List.mem_cons_self,
          h429.1, bodyClassification_unknown hunknown, .inr ⟨h401, by simpa using hr⟩⟩

theorem buildProbeSuccess_not_permanent {payload : Dict}
    (h : buildProbeSuccess py clock payload endpoint = .ok result) :
    result.permanentAuthFailure = false := by
  obtain ⟨_, -, h⟩ := except_bind_ok h
  obtain ⟨_, -, h⟩ := except_bind_ok h
  obtain ⟨_, -, h⟩ := except_bind_ok h
  obtain ⟨_, -, h⟩ := except_bind_ok h
  obtain ⟨_, -, h⟩ := except_bind_ok h
  rw [← Except.ok.inj h]

/-- An answer makes a result permanent only if it is a failure that condemns the credential. -/
theorem judgeAnswer_permanent {hasRefresh : Bool} {answer : Answer}
    (h : judgeAnswer py clock endpoint hasRefresh answer = .ok (some result))
    (hp : result.permanentAuthFailure = true) :
    IsPermanent result ∧ ∃ status body, failureOf answer = some (status, body) ∧
      Condemns py hasRefresh status body := by
  cases answer with
  | raised => exact absurd h (by simp [judgeAnswer])
  | httpError code body =>
    obtain ⟨h1, h2⟩ := classifiedHttpFailure_permanent (Except.ok.inj h) hp
    exact ⟨h1, code, boundedErrorBody body, rfl, h2⟩
  | reply status body =>
    simp only [judgeAnswer] at h
    split_ifs at h with hlong h400
    · exact absurd h (by simp)
    · obtain ⟨h1, h2⟩ := classifiedHttpFailure_permanent (Except.ok.inj h) hp
      exact ⟨h1, status, body, by rw [failureOf, if_pos ⟨h400, by omega⟩], h2⟩
    · split at h
      · exact absurd h (by simp)
      · next payload _ =>
        rcases hs : buildProbeSuccess py clock payload endpoint with e | r
        · rw [hs] at h; exact absurd h (by simp [Except.map])
        · rw [hs] at h
          simp only [Except.map, Except.ok.injEq, Option.some.injEq] at h
          rw [h] at hs
          exact absurd hp (by simp [buildProbeSuccess_not_permanent hs])
      · exact absurd h (by simp)

/-- The answer to the request of a probe at an endpoint. -/
def answerAt (py : Py) (opener : Opener) (auth : Dict) (endpoint : Str) : Answer :=
  opener ⟨endpoint, usageHeaders endpoint (authTokens py auth).access (authAccountId py auth)⟩

/-- Why the probe of a credential ends with a permanent result: its access token is about to expire
and it cannot be refreshed, or the first answer that has a result condemns it. -/
inductive Cause (py : Py) (opener : Opener) (clock : Clock) (auth : Dict) : Prop where
  | expired (needs : tokenNeedsRefresh py clock.started (authTokens py auth).access = .ok true)
      (stuck : (authTokens py auth).refresh = [])
  | answered (before after : List Str) (endpoint : Str) (status : ℤ) (body : Bytes)
      (order : endpointCandidates py auth = before ++ endpoint :: after)
      (first : ∀ e ∈ before, attempt py opener clock auth e = .ok none)
      (failure : failureOf (answerAt py opener auth endpoint) = some (status, body))
      (condemns : Condemns py ((authTokens py auth).refresh ≠ []) status body)

/-- **A probe is permanent only for a cause**, and then it is invalid, not for the weekly quota, and
has an allowed reason. -/
theorem probe_permanent (h : probeAccountQuotaHttp py opener clock auth = .ok (some result))
    (hp : result.permanentAuthFailure = true) :
    IsPermanent result ∧ Cause py opener clock auth := by
  unfold probeAccountQuotaHttp at h
  by_cases hs : !tokenSupported (authTokens py auth).access
  · exact absurd h (by simp [hs])
  simp only [if_neg hs] at h
  obtain ⟨needs, hneeds, h⟩ := except_bind_ok h
  cases needs with
  | true =>
    rw [if_pos rfl] at h
    by_cases hr : (authTokens py auth).refresh = []
    · rw [if_neg (not_not.mpr hr)] at h
      rw [← Option.some.inj (Except.ok.inj h)]
      exact ⟨isPermanent_markPermanent (by decide), .expired hneeds hr⟩
    · rw [if_pos hr] at h
      rw [← Option.some.inj (Except.ok.inj h)] at hp
      exact absurd hp (by simp [buildProbeError])
  | false =>
    rw [if_neg (by simp)] at h
    obtain ⟨before, endpoint, after, hsplit, hfirst, hthis⟩ := firstResult_some h
    obtain ⟨hres, status, body, hfail, hcond⟩ := judgeAnswer_permanent hthis hp
    exact ⟨hres, .answered before after endpoint status body hsplit hfirst hfail hcond⟩

end Cloudx.Cloud.Quota
