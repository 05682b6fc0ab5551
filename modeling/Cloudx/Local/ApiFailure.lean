import Cloudx.Python.Value
import Cloudx.Local.RootCause

/-! # Classifying a failed response

`api_failure.py` reads the text of a response, or what has arrived of it, and says why the request
failed. It looks for an error document in the text, then at the document's signal and message, and
where there is no message at the text itself. -/

namespace Cloudx.Local.ApiFailure

open Cloudx.Python.Text Cloudx.Python.Value
open Cloudx.Local.RootCause

/-- What the classification takes from the interpreter besides `Py`. -/
structure Reader where
  py : Py
  /-- `raw.decode("utf-8", errors="replace")` -/
  decodeReplace : Bytes → Str
  /-- `json.loads(s)` -/
  loads : Str → Loaded
  /-- `timedelta(seconds=x)` in seconds; `none` for `OverflowError` -/
  timedelta : PyFloat → Option ℚ

/-- `MAX_ERROR_BYTES` -/
def maxErrorBytes : ℕ := 256 * 1024

/-- `raw[-n:]` for an `n` that is not zero -/
def lastBytes (n : ℕ) (raw : Bytes) : Bytes := raw.drop (raw.length - n)

/-! ### Times -/

/-- `iso_utc` of an instant -/
def isoUtc (py : Py) (t : ℚ) : Str := replace (lit "+00:00") (lit "Z") (py.isoformat t)

/-- `parse_timestamp` of a text -/
def parseTimestamp (py : Py) (value : Str) : Except PyError (Option ℚ) :=
  if strip value = [] then .ok none
  else match py.fromisoformat (isoText (strip value)) with
    | none => .ok none
    | some t => match astimezone t with
      | .error e => .error e
      | .ok t => .ok (some t)

/-! ### Documents -/

/-- The characters at which `str.splitlines` ends a line. -/
def isBreak (c : ℕ) : Bool :=
  (10 ≤ c && c ≤ 13) || (28 ≤ c && c ≤ 30) || c == 0x85 || c == 0x2028 || c == 0x2029

/-- `str.splitlines`, with the line read so far, reversed. -/
def splitLinesFrom (line : Str) : Str → List Str
  | [] => if line = [] then [] else [line.reverse]
  | 13 :: 10 :: s => line.reverse :: splitLinesFrom [] s
  | c :: s => if isBreak c then line.reverse :: splitLinesFrom [] s else splitLinesFrom (c :: line) s

/-- `text.splitlines()` -/
def splitLines (text : Str) : List Str := splitLinesFrom [] text

/-- The text without `data:` before it. -/
def withoutData (s : Str) : Str := if startsWith s (lit "data:") then strip (s.drop 5) else s

/-- What a line offers: an object between braces. -/
def lineCandidate (line : Str) : Option Str :=
  let candidate := withoutData (strip line)
  if startsWith candidate [123] && endsWith candidate [125] then some candidate else none

/-- The texts that may be an error document, in the order in which they are tried. -/
def candidates (text : Str) : List Str :=
  (if startsWith (strip text) (lit "data:") then [strip ((strip text).drop 5)] else []) ++
    strip text :: (splitLines text).reverse.filterMap lineCandidate

/-- The loop of `_error_document`: the first candidate that is an object. -/
def firstObject (r : Reader) : List Str → Except PyError Dict
  | [] => .ok []
  | candidate :: rest =>
    match r.loads candidate with
    | .value (.obj d) => .ok d
    | .value _ => firstObject r rest
    | .jsonError => firstObject r rest
    | .unicodeError => .error .value
    | .raised e => .error e

/-- `_error_document` -/
def errorDocument (r : Reader) (text : Str) : Except PyError Dict := firstObject r (candidates text)

/-- `_error_fields` -/
def errorFields (document : Dict) : Dict :=
  match get document (lit "error") with
  | .obj error => error
  | _ => match get document (lit "response") with
    | .obj response => match get response (lit "error") with
      | .obj error => error
      | _ => document
    | _ => document

/-! ### Signals -/

/-- `SIGNAL_NONE` -/
def signalNone : Str := lit "none"

/-- `SIGNAL_OTHER` -/
def signalOther : Str := lit "other"

/-- `KNOWN_SIGNALS` -/
def knownSignals : List Str :=
  [lit "account_deactivated", lit "account_disabled", lit "account_suspended",
    lit "usage_limit_reached", lit "insufficient_quota", lit "quota_exceeded",
    lit "billing_hard_limit_reached", lit "credits_exhausted", lit "rate_limit_error",
    lit "rate_limit_exceeded", lit "too_many_requests", lit "refresh_token_reused",
    lit "invalid_grant", lit "invalid_token", lit "token_expired", lit "invalid_api_key",
    lit "authentication_error", lit "unauthorized", lit "permission_denied", lit "forbidden",
    lit "model_not_found", lit "auth_unavailable", lit "internal_server_error"]

/-- What the classification compares a signal by. -/
def normalized (py : Py) (value : Json) : Str :=
  replace [45] [95] (py.casefold (py.text [value]))

/-- The loop of `_normalized_signal` over the keys. -/
def firstSignal (py : Py) (fields : Dict) : List Str → Str
  | [] => signalOther
  | key :: keys =>
    if normalized py (get fields key) ∈ knownSignals then normalized py (get fields key)
    else firstSignal py fields keys

/-- `_normalized_signal` -/
def normalizedSignal (py : Py) (fields : Dict) : Str :=
  firstSignal py fields [lit "type", lit "code", lit "error_type"]

/-! ### Reset times -/

/-- A number above zero, no `bool`. -/
def isPositive : Json → Bool
  | .int n => 0 < n
  | .float (.finite q) => 0 < q
  | .float .inf => true
  | _ => false

/-- `float(value)` of a number; `none` for `OverflowError` -/
def floatOf (py : Py) : Json → Option PyFloat
  | .int n => (py.float n).map .finite
  | .float x => some x
  | _ => none

/-- The first loop of `_retry_at`: a reset time as a number or as a text. -/
def resetAt (py : Py) (fields : Dict) : List Str → Except PyError (Option Str)
  | [] => .ok none
  | key :: keys =>
    match get fields key with
    | .str value =>
      match parseTimestamp py value with
      | .error e => .error e
      | .ok none => resetAt py fields keys
      | .ok (some t) => .ok (some (isoUtc py t))
    | value =>
      if isPositive value then
        match (floatOf py value).bind py.fromtimestamp with
        | some t => .ok (some (isoUtc py t))
        | none => resetAt py fields keys
      else resetAt py fields keys

/-- The second loop of `_retry_at`: a duration from the time of the observation. -/
def resetIn (r : Reader) (fields : Dict) (observedAt : ℚ) : List Str → Except PyError (Option Str)
  | [] => .ok none
  | key :: keys =>
    if isPositive (get fields key) then
      match (floatOf r.py (get fields key)).bind r.timedelta with
      | none => .error .overflow
      | some delta =>
        if inRange (observedAt + delta) then .ok (some (isoUtc r.py (observedAt + delta)))
        else .error .overflow
    else resetIn r fields observedAt keys

/-- The keys of the first loop. -/
def resetKeys : List Str := [lit "resets_at", lit "reset_at"]

/-- The keys of the second loop. -/
def durationKeys : List Str :=
  [lit "resets_in_seconds", lit "retry_after_seconds", lit "reset_after_seconds"]

/-- `_retry_at` -/
def retryAt (r : Reader) (fields : Dict) (observedAt : ℚ) : Except PyError (Option Str) :=
  match resetAt r.py fields resetKeys with
  | .error e => .error e
  | .ok (some time) => .ok (some time)
  | .ok none => resetIn r fields observedAt durationKeys

/-! ### Causes -/

/-- Some phrase stands in the text. -/
def anyIn (phrases : List Str) (text : Str) : Bool := phrases.any fun phrase => contains phrase text

/-- The tests of `classify_http_failure`, in the order in which they are asked: the signals that name
the cause, the phrases looked for in the searchable text, those looked for in the message only, the
cause, whether it is definitive, and the signal that stands in for an unknown one. -/
structure Test where
  signals : List Str
  searched : List Str
  inMessage : List Str
  cause : Str
  definitive : Bool
  signal : Str

/-- The test for a deactivated account. -/
def deactivated : Test where
  signals := [lit "account_deactivated", lit "account_disabled", lit "account_suspended"]
  searched := [lit "account has been deactivated", lit "account was deactivated",
    lit "account is deactivated", lit "account has been suspended", lit "account is suspended"]
  inMessage := []
  cause := lit "account_deactivated"
  definitive := true
  signal := lit "account_deactivated"

/-- The test for an exhausted allowance. -/
def quota : Test where
  signals := [lit "usage_limit_reached", lit "insufficient_quota", lit "quota_exceeded",
    lit "billing_hard_limit_reached", lit "credits_exhausted"]
  searched := [lit "usage limit has been reached", lit "you've hit your usage limit",
    lit "you’ve hit your usage limit", lit "exceeded your current quota",
    lit "billing hard limit has been reached", lit "credit balance is too low",
    lit "no credits remaining", lit "quota exhausted"]
  inMessage := []
  cause := lit "quota_exhausted"
  definitive := true
  signal := lit "usage_limit_reached"

/-- The test for a credential that is no longer good. -/
def login : Test where
  signals := [lit "refresh_token_reused", lit "invalid_grant", lit "invalid_token",
    lit "token_expired", lit "invalid_api_key", lit "authentication_error", lit "unauthorized"]
  searched := [lit "invalid or expired token", lit "token has expired", lit "token was revoked",
    lit "refresh token has already been used", lit "refresh token was already used",
    lit "please try signing in again", lit "please log out and sign in again"]
  inMessage := []
  cause := lit "login_required"
  definitive := true
  signal := lit "authentication_error"

/-- The test for a rate limit. -/
def rateLimited : Test where
  signals := [lit "rate_limit_error", lit "rate_limit_exceeded", lit "too_many_requests"]
  searched := []
  inMessage := [lit "rate limit reached", lit "rate limit exceeded", lit "too many requests"]
  cause := lit "rate_limited"
  definitive := true
  signal := lit "rate_limit_exceeded"

/-- The test for a pool without a usable account. -/
def noUsable : Test where
  signals := [lit "auth_unavailable"]
  searched := [lit "auth_unavailable", lit "no auth available", lit "no usable accounts"]
  inMessage := []
  cause := causeNoUsableAccounts
  definitive := false
  signal := lit "auth_unavailable"

/-- The test for a permission that is lacking. -/
def accessDenied : Test where
  signals := [lit "permission_denied", lit "forbidden", lit "model_not_found"]
  searched := []
  inMessage := [lit "permission denied", lit "does not have access", lit "model is not supported"]
  cause := lit "access_denied"
  definitive := true
  signal := lit "forbidden"

/-- The tests, in order. -/
def tests : List Test := [deactivated, quota, login, rateLimited, noUsable, accessDenied]

/-- A test applies. -/
def Test.applies (t : Test) (signal searchable message : Str) : Bool :=
  signal ∈ t.signals || anyIn t.searched searchable || anyIn t.inMessage message

/-- `CAUSE_UNKNOWN` -/
def causeUnknown : Str := lit "unknown"

/-- `CAUSE_UPSTREAM_FAILURE` -/
def causeUpstreamFailure : Str := lit "upstream_failure"

/-- The causes that the status alone gives. -/
def statusCause (status : Option ℤ) (signal : Str) : Str × Bool × Str :=
  if status = some 401 then (lit "login_required", true, lit "http_401")
  else if status = some 403 then (lit "access_denied", true, lit "http_403")
  else if status = some 429 then (lit "rate_limited", true, lit "http_429")
  else if status.any (500 ≤ ·) then (causeUpstreamFailure, false, lit "http_5xx")
  else (causeUnknown, false, if signal = signalOther then signalNone else signal)

/-- The cause, whether it is definitive, and the signal. An unknown signal is replaced in the test
for a pool without accounts whatever it is. -/
def causeOf (status : Option ℤ) (signal searchable message : Str) : Str × Bool × Str :=
  match tests.find? fun t => t.applies signal searchable message with
  | some t => (t.cause, t.definitive,
      if signal = signalOther ∨ t.cause = causeNoUsableAccounts then t.signal else signal)
  | none => statusCause status signal

/-- `classify_http_failure`, as the observation that `as_observation` makes of it. Its last test, for a
signal that is still `SIGNAL_OTHER`, is left out: no cause leaves that signal. -/
def classify (r : Reader) (status : Option ℤ) (body : Bytes) (observedAt : ℚ) :
    Except PyError Observation :=
  let text := r.decodeReplace (lastBytes maxErrorBytes body)
  match errorDocument r text with
  | .error e => .error e
  | .ok document =>
    let fields := errorFields document
    let message := r.py.casefold (r.py.text [get fields (lit "message"), get document (lit "message")])
    let searchable :=
      if message ≠ [] then message
      else if status.any (400 ≤ ·) then r.py.casefold text else []
    match retryAt r fields observedAt with
    | .error e => .error e
    | .ok time =>
      let verdict := causeOf status (normalizedSignal r.py fields) searchable message
      .ok ⟨verdict.1, status, verdict.2.2, observedAt, time, verdict.2.1,
        lit "tunnel_observation", none⟩

end Cloudx.Local.ApiFailure
