import Cloudx.Lib.Memo
import Cloudx.Shared.Http
import Cloudx.Local.Archive
import Cloudx.Local.Import
import Mathlib.Data.Finset.Sort

/-! # Probing the local accounts

`local_cpa_probe.py`: the contexts of the auth directory, one probe a credential, and the files all
of whose contexts failed for good. A context carries the digest of the bytes it was read from. -/

namespace Cloudx.Local.Probe

open Cloudx.Lib.Memo
open Cloudx.Python.Text Cloudx.Python.Value Cloudx.Python.Dump
open Cloudx.Shared Cloudx.Shared.Credential Cloudx.Shared.Http
open Cloudx.Local.Archive Cloudx.Local.Import

/-- `MAX_CONTEXTS` -/
def maxContexts : ℕ := 4096

/-- `MAX_CONCURRENCY` -/
def maxConcurrency : ℤ := 64

/-- `REFRESH_SKEW_SECONDS` -/
def refreshSkewSeconds : ℚ := 5 * 60

/-- `PERMANENT_REASONS` -/
def permanentReasons : List Reason := permanentMarkers.map Prod.snd

/-- `ProbeContext` -/
structure ProbeContext where
  path : FileName
  digest : Str
  payload : Dict
deriving DecidableEq

/-- `ProbeCandidate` -/
structure ProbeCandidate where
  path : FileName
  digest : Str
  reason : Reason
deriving DecidableEq

variable (py : Py)

/-! ### Contexts -/

/-- The contexts of a file. A document that is refused, or that nests too deeply, has none. -/
def fileContexts (path : FileName) (file : File) : Except PyError (List ProbeContext) :=
  if maxAuthFileBytes < file.bytes.length then .ok []
  else match file.content with
    | .raised e => .error e
    | .value (.obj document) =>
      if AgentIdentity.isAgentIdentity py document then .ok []
      else match expandObject py document path.text with
        | .ok payloads => .ok (payloads.map (⟨path, py.sha256 file.bytes, ·⟩))
        | .error (.refused _ _) => .ok []
        | .error .recursion => .ok []
        | .error e => .error e
    | _ => .ok []

/-- The names `auth_dir.glob("*.json")` yields, in order. -/
def jsonNames (names : Finset FileName) : List FileName :=
  (((names.image FileName.text).filter fun s => endsWith s (lit ".json")).sort (· ≤ ·)).filterMap
    FileName.ofStr?

/-- The loop of `contexts` with `total` contexts so far, on what it has read of each file. The limit
is checked before the next file is read. -/
def contextsFrom (total : ℕ) : List (FileName × Option File) → Except PyError (List ProbeContext)
  | [] => .ok []
  | (_, none) :: rest => contextsFrom total rest
  | (path, some file) :: rest => do
    let found ← fileContexts py path file
    if maxContexts < total + found.length then
      .error (.rejected "local CPA probe context count exceeds the safety limit")
    else
      let more ← contextsFrom (total + found.length) rest
      return found ++ more

/-- `contexts` -/
def contexts (reads : List (FileName × Option File)) : Except PyError (List ProbeContext) :=
  contextsFrom py 0 reads

/-! ### Probes -/

/-- The `status` of a result. -/
inductive Status where
  | ready
  | limited
  | login
  | invalid
deriving DecidableEq

/-- A result of `_probe`. -/
structure Result where
  status : Status
  reason : Option Reason
  permanent : Bool
  weeklyQuota : Option Bool
deriving DecidableEq

/-- `{"status": status}` -/
def plain (status : Status) : Result := ⟨status, none, false, none⟩

/-- A permanent failure. -/
def permanentFailure (reason : Reason) : Result := ⟨.invalid, some reason, true, some false⟩

/-- `float(value)` for a number that is no `bool`. -/
def floatOf : Json → Except PyError (Option PyFloat)
  | .int n => match py.float n with
    | some q => .ok (some (.finite q))
    | none => .error .overflow
  | .float x => .ok (some x)
  | _ => .ok none

/-- `_jwt_expiry` -/
def jwtExpiry (token : Str) : Except PyError (Option PyFloat) := do
  floatOf py (get (← decodeJwtPayload py token) (lit "exp"))

/-- `expiry is not None and expiry <= limit` -/
def atMost (limit : ℚ) : Option PyFloat → Bool
  | some (.finite q) => q ≤ limit
  | some .negInf => true
  | _ => false

/-- `_classified_failure` -/
def classifiedFailure (status : ℤ) (raw : Bytes) (hasRefresh : Bool) : Option Result :=
  let text := foldedText py raw
  if status = 429 ∨ quotaMarkers.any fun marker => contains marker text then some (plain .limited)
  else match permanentMarkers.find? fun m => contains m.1 text with
    | some m => some (permanentFailure m.2)
    | none =>
      if status = 401 then
        if hasRefresh then some (plain .login)
        else some (permanentFailure .authenticationUnauthorized)
      else none

/-- A number that is no `bool` and at most zero. -/
def notPositive : Json → Bool
  | .int n => n ≤ 0
  | .float (.finite q) => q ≤ 0
  | .float .negInf => true
  | _ => false

/-- A number that is no `bool` and at least a hundred. -/
def fullyUsed : Json → Bool
  | .int n => 100 ≤ n
  | .float (.finite q) => 100 ≤ q
  | .float .inf => true
  | _ => false

/-- What `_rate_limited` looks for in a value of the rate limits. -/
def exhausted : Json → Bool
  | .obj value =>
    notPositive (get value (lit "remaining_percent")) ||
      fullyUsed (if has value (lit "used_percent") then get value (lit "used_percent")
        else get value (lit "utilization"))
  | _ => false

/-- `_rate_limited` of a dict. -/
def rateLimited (rate : Dict) : Bool :=
  truthy (get rate (lit "limit_reached")) || rate.any fun kv => exhausted kv.2

/-- The rate limits of a usage document: its `rate_limit` object, or the document. -/
def rateOf (document : Dict) : Dict :=
  match get document (lit "rate_limit") with
  | .obj rate => rate
  | _ => document

/-- The body of the loop over the endpoints on an answer; nothing stands for `continue`. -/
def judgeAnswer (hasRefresh : Bool) : Answer → Except PyError (Option Result)
  | .raised => .ok none
  | .httpError code body => .ok (classifiedFailure py code (boundedErrorBody body) hasRefresh)
  | .reply status raw =>
    if maxResponseBytes < raw.length then .ok none
    else if 400 ≤ status then .ok (classifiedFailure py status raw hasRefresh)
    else match py.loads raw with
      | .raised e => .error e
      | .value (.obj document) =>
        .ok (some (plain (if rateLimited (rateOf document) then .limited else .ready)))
      | _ => .ok none

/-- The body of the loop over the endpoints. -/
def attempt (opener : Opener) (payload : Dict) (endpoint : Str) : Except PyError (Option Result) :=
  let tokens := authTokens py payload
  judgeAnswer py (tokens.refresh ≠ [])
    (opener ⟨endpoint, usageHeaders endpoint tokens.access (authAccountId py payload)⟩)

/-- `_probe` at the time `now`. -/
def probe (opener : Opener) (now : ℚ) (payload : Dict) : Except PyError (Option Result) :=
  let tokens := authTokens py payload
  if dots tokens.access < 2 then .ok none
  else do
    let expiry ← jwtExpiry py tokens.access
    if atMost (now + refreshSkewSeconds) expiry then
      if tokens.refresh ≠ [] then return some (plain .login)
      else return some (permanentFailure .missingToken)
    else firstResult (attempt py opener payload) [usageEndpointChatgpt, usageEndpointCodexapi]

/-- The text that `_probe_key` hashes. -/
def keyText (payload : Dict) : Str :=
  let tokens := authTokens py payload
  tokens.access ++ 0 :: (authAccountId py payload ++
    0 :: (if tokens.refresh ≠ [] then lit "1" else lit "0"))

/-- `_probe_key` -/
def probeKey (payload : Dict) : Except PyError Str :=
  if encodable (keyText py payload) then .ok (py.sha256 (utf8 (keyText py payload)))
  else .error .unicodeEncode

/-! ### The sweep -/

/-- The observations of some payloads. Each credential is probed once, at the time its clock says. -/
def probePayloads (opener : Opener) (clock : Str → ℚ) (payloads : List Dict) :
    Except PyError (List (Option Result)) :=
  shared (probeKey py) (fun key payload => probe py opener (clock key) payload) payloads

/-- The reason of a permanent failure, if it is one that allows to archive. -/
def archiveReason : Option Result → Option Reason
  | some item =>
    if item.permanent && item.weeklyQuota = some false then
      item.reason.filter (· ∈ permanentReasons)
    else none
  | none => none

/-- The candidate of a path with its observations, each a result and a digest. -/
def judge (path : FileName) (values : List (Option Result × Str)) : Option ProbeCandidate :=
  match values.mapM fun v => archiveReason v.1 with
  | none => none
  | some reasons => match (values.map Prod.snd).dedup with
    | [digest] => (firstReason reasons).map (⟨path, digest, ·⟩)
    | _ => none

/-- The candidates of a sweep, in the order of the contexts. -/
def candidatesOf (selected : List ProbeContext) (observations : List (Option Result)) :
    List ProbeCandidate :=
  (groups ((selected.map ProbeContext.path).zip
    (observations.zip (selected.map ProbeContext.digest)))).filterMap fun g => judge g.1 g.2

/-- `gate` of a summary. -/
inductive SweepGate where
  | noAccounts
  | transport (gate : Gate)
deriving DecidableEq

/-- The summary of `probe_all`; a sweep that does not reach the probes counts nothing. -/
structure Summary where
  gate : SweepGate
  total : ℕ
  uniqueCredentials : Option ℕ
  concurrency : ℤ
  available : Option ℕ
  limited : Option ℕ
  invalid : Option ℕ
  failed : ℕ
deriving DecidableEq

/-- How many observations have a status. -/
def countStatus (status : Status) (observations : List (Option Result)) : ℕ :=
  observations.countP fun item => item.map Result.status = some status

/-- The summary of the observations; the local probe has no status `warning`. -/
def summarize (concurrency : ℤ) (unique : ℕ) (observations : List (Option Result)) : Summary where
  gate := .transport .reachable
  total := observations.length
  uniqueCredentials := some unique
  concurrency := min unique (max 1 (min maxConcurrency concurrency))
  available := some (countStatus .ready observations)
  limited := some (countStatus .limited observations)
  invalid := some (countStatus .invalid observations)
  failed := observations.length - countStatus .ready observations - countStatus .limited observations

/-- `probe_all` on the contexts it has found. -/
def probeAll (opener : Opener) (clock : Str → ℚ) (concurrency : ℤ) (selected : List ProbeContext) :
    Except PyError (Summary × List ProbeCandidate) :=
  if selected = [] then .ok (⟨.noAccounts, 0, none, 0, none, none, none, 0⟩, [])
  else match transport opener with
    | .reachable => do
      let payloads := selected.map ProbeContext.payload
      let observations ← probePayloads py opener clock payloads
      let unique := (firsts ((keyed (probeKey py) payloads).toOption.getD [])).length
      return (summarize concurrency unique observations, candidatesOf selected observations)
    | gate => .ok (⟨.transport gate, selected.length, none, 0, none, none, none, selected.length⟩, [])

/-! ### Permanent results -/

/-- A result of a failure that is marked permanent. -/
structure IsPermanent (result : Result) : Prop where
  status : result.status = .invalid
  marked : result.permanent = true
  weekly : result.weeklyQuota = some false

variable {py} {opener : Opener} {now : ℚ} {payload : Dict} {result : Result}

theorem isPermanent_permanentFailure (reason : Reason) : IsPermanent (permanentFailure reason) :=
  ⟨rfl, rfl, rfl⟩

/-- **A failure is called permanent only if it condemns the credential.** -/
theorem classifiedFailure_permanent {hasRefresh : Bool} {status : ℤ} {raw : Bytes}
    (h : classifiedFailure py status raw hasRefresh = some result) (hp : result.permanent = true) :
    IsPermanent result ∧ Condemns py hasRefresh status raw := by
  unfold classifiedFailure at h
  simp only at h
  by_cases hq : status = 429 ∨ quotaMarkers.any fun marker => contains marker (foldedText py raw)
  · rw [if_pos hq] at h
    rw [← Option.some.inj h] at hp
    exact absurd hp (by simp [plain])
  rw [if_neg hq] at h
  rw [not_or] at hq
  have hquota : ∀ marker ∈ quotaMarkers, contains marker (foldedText py raw) = false := by
    simpa using hq.2
  split at h
  · next m hm =>
    rw [← Option.some.inj h]
    exact ⟨isPermanent_permanentFailure m.2, hq.1, hquota,
      .inl ⟨m, List.mem_of_find?_eq_some hm, by simpa using List.find?_some hm⟩⟩
  · split_ifs at h with h401 hr
    · rw [← Option.some.inj h] at hp
      exact absurd hp (by simp [plain])
    · rw [← Option.some.inj h]
      exact ⟨isPermanent_permanentFailure _, hq.1, hquota, .inr ⟨h401, by simpa using hr⟩⟩

/-- An answer makes a result permanent only if it is a failure that condemns the credential. -/
theorem judgeAnswer_permanent {hasRefresh : Bool} {answer : Answer}
    (h : judgeAnswer py hasRefresh answer = .ok (some result)) (hp : result.permanent = true) :
    IsPermanent result ∧ ∃ status body, failureOf answer = some (status, body) ∧
      Condemns py hasRefresh status body := by
  cases answer with
  | raised => exact absurd h (by simp [judgeAnswer])
  | httpError code body =>
    obtain ⟨h1, h2⟩ := classifiedFailure_permanent (Except.ok.inj h) hp
    exact ⟨h1, code, boundedErrorBody body, rfl, h2⟩
  | reply status body =>
    simp only [judgeAnswer] at h
    split_ifs at h with hlong h400
    · exact absurd h (by simp)
    · obtain ⟨h1, h2⟩ := classifiedFailure_permanent (Except.ok.inj h) hp
      exact ⟨h1, status, body, by rw [failureOf, if_pos ⟨h400, by omega⟩], h2⟩
    · split at h
      · exact absurd h (by simp)
      · rw [← Option.some.inj (Except.ok.inj h)] at hp
        exact absurd hp (by simp [plain])
      · exact absurd h (by simp)

/-- The answer to the request of a probe at an endpoint. -/
def answerAt (py : Py) (opener : Opener) (payload : Dict) (endpoint : Str) : Answer :=
  opener ⟨endpoint,
    usageHeaders endpoint (authTokens py payload).access (authAccountId py payload)⟩

/-- Why the probe of a credential ends with a permanent result: its access token is about to expire
and it cannot be refreshed, or the first answer that has a result condemns it. -/
inductive Cause (py : Py) (opener : Opener) (now : ℚ) (payload : Dict) : Prop where
  | expired (expiry : Option PyFloat) (reads : jwtExpiry py (authTokens py payload).access = .ok expiry)
      (near : atMost (now + refreshSkewSeconds) expiry) (stuck : (authTokens py payload).refresh = [])
  | answered (before after : List Str) (endpoint : Str) (status : ℤ) (body : Bytes)
      (order : [usageEndpointChatgpt, usageEndpointCodexapi] = before ++ endpoint :: after)
      (first : ∀ e ∈ before, attempt py opener payload e = .ok none)
      (failure : failureOf (answerAt py opener payload endpoint) = some (status, body))
      (condemns : Condemns py ((authTokens py payload).refresh ≠ []) status body)

/-- **A probe is permanent only for a cause**, and then it is invalid and not for the weekly quota. -/
theorem probe_permanent (h : probe py opener now payload = .ok (some result))
    (hp : result.permanent = true) : IsPermanent result ∧ Cause py opener now payload := by
  unfold probe at h
  by_cases hs : dots (authTokens py payload).access < 2
  · exact absurd h (by simp [hs])
  simp only [if_neg hs] at h
  obtain ⟨expiry, hexpiry, h⟩ := except_bind_ok h
  by_cases hnear : atMost (now + refreshSkewSeconds) expiry
  · rw [if_pos hnear] at h
    by_cases hr : (authTokens py payload).refresh = []
    · rw [if_neg (not_not.mpr hr)] at h
      rw [← Option.some.inj (Except.ok.inj h)]
      exact ⟨isPermanent_permanentFailure _, .expired expiry hexpiry hnear hr⟩
    · rw [if_pos hr] at h
      rw [← Option.some.inj (Except.ok.inj h)] at hp
      exact absurd hp (by simp [plain])
  · rw [if_neg hnear] at h
    obtain ⟨before, endpoint, after, hsplit, hfirst, hthis⟩ := firstResult_some h
    obtain ⟨hres, status, body, hfail, hcond⟩ := judgeAnswer_permanent hthis hp
    exact ⟨hres, .answered before after endpoint status body hsplit hfirst hfail hcond⟩

/-! ### What a candidate is -/

/-- What an allowed reason says of a result. -/
theorem archiveReason_some {item : Option Result} {reason : Reason}
    (h : archiveReason item = some reason) :
    ∃ r, item = some r ∧ r.permanent = true ∧ ∃ q ∈ permanentReasons, r.reason = some q := by
  cases item with
  | none => exact absurd h (by simp [archiveReason])
  | some r =>
    simp only [archiveReason] at h
    split_ifs at h with hc
    obtain ⟨h1, h2⟩ := Option.filter_eq_some_iff.mp h
    exact ⟨r, rfl, (Bool.and_eq_true_iff.mp hc).1, reason, of_decide_eq_true h2, h1⟩

/-- **The observations of a candidate**: all results permanent, all digests the candidate's one. -/
theorem judge_some {path : FileName} {values : List (Option Result × Str)} {c : ProbeCandidate}
    (h : judge path values = some c) : c.path = path ∧
      ∀ v ∈ values, (∃ r, v.1 = some r ∧ r.permanent = true ∧
        ∃ q ∈ permanentReasons, r.reason = some q) ∧ v.2 = c.digest := by
  unfold judge at h
  split at h
  · exact absurd h (by simp)
  next reasons hreasons =>
  split at h
  next digest hdigest =>
    obtain ⟨reason, -, rfl⟩ := Option.map_eq_some_iff.mp h
    refine ⟨rfl, fun v hv => ⟨?_, ?_⟩⟩
    · obtain ⟨reason, hr⟩ := mapM_option_some hreasons v hv
      exact archiveReason_some hr
    · have : v.2 ∈ (values.map Prod.snd).dedup := List.mem_dedup.mpr (List.mem_map_of_mem hv)
      rw [hdigest] at this
      exact List.mem_singleton.mp this
  next => exact absurd h (by simp)

/-- A candidate comes from a group of observations, one for each context of its path. -/
theorem mem_candidatesOf {selected : List ProbeContext} {observations : List (Option Result)}
    {c : ProbeCandidate} (h : c ∈ candidatesOf selected observations) :
    ∃ values, values ≠ [] ∧ judge c.path values = some c ∧
      ∀ v, v ∈ values ↔ (c.path, v) ∈ (selected.map ProbeContext.path).zip
        (observations.zip (selected.map ProbeContext.digest)) := by
  obtain ⟨⟨path, values⟩, hg, hj⟩ := List.mem_filterMap.mp h
  obtain ⟨hne, hmem⟩ := mem_groups hg
  simp only at hj
  obtain ⟨rfl, -⟩ := judge_some hj
  exact ⟨values, hne, hj, hmem⟩

/-- The probe of a context: a permanent result with an allowed reason, for a cause, of a credential
with the same key. -/
structure ProbedDead (py : Py) (opener : Opener) (clock : Str → ℚ) (context : ProbeContext)
    (result : Result) : Prop where
  permanent : IsPermanent result
  reason : ∃ q ∈ permanentReasons, result.reason = some q
  probed : ∃ key payload, probeKey py context.payload = .ok key ∧ probeKey py payload = .ok key ∧
    probe py opener (clock key) payload = .ok (some result) ∧ Cause py opener (clock key) payload

/-- **Every context of a candidate's path is dead**, and every digest is the candidate's. -/
theorem candidate_dead {clock : Str → ℚ} {selected : List ProbeContext}
    {observations : List (Option Result)} {c : ProbeCandidate}
    (hprobes : probePayloads py opener clock (selected.map ProbeContext.payload) = .ok observations)
    (hc : c ∈ candidatesOf selected observations) :
    (∃ x ∈ selected, x.path = c.path) ∧
      ∀ (i : ℕ) x, selected[i]? = some x → x.path = c.path → x.digest = c.digest ∧
        ∃ result, observations[i]? = some (some result) ∧ ProbedDead py opener clock x result := by
  obtain ⟨values, hne, hj, hmem⟩ := mem_candidatesOf hc
  obtain ⟨-, hall⟩ := judge_some hj
  refine ⟨?_, fun i x hx hpath => ?_⟩
  · obtain ⟨v, hv⟩ := List.exists_mem_of_ne_nil _ hne
    obtain ⟨x, hx, hpath⟩ := List.mem_map.mp (List.of_mem_zip ((hmem v).mp hv)).1
    exact ⟨x, hx, hpath⟩
  · have hpayload : (selected.map ProbeContext.payload)[i]? = some x.payload := by
      rw [List.getElem?_map, hx]; rfl
    obtain ⟨r, hr, key, payload, hkey, -, hkey', hprobe⟩ :=
      forall₂_getElem? (forall_shared hprobes) hpayload
    have hzip : (c.path, r, x.digest) ∈ (selected.map ProbeContext.path).zip
        (observations.zip (selected.map ProbeContext.digest)) := by
      refine List.mem_of_getElem? (i := i) (List.getElem?_zip_eq_some.mpr ⟨?_, ?_⟩)
      · rw [List.getElem?_map, hx, ← hpath]; rfl
      · refine List.getElem?_zip_eq_some.mpr ⟨hr, ?_⟩
        rw [List.getElem?_map, hx]; rfl
    obtain ⟨⟨result, hres, hperm, hreason⟩, hsame⟩ := hall _ ((hmem _).mpr hzip)
    simp only at hres hsame
    subst hres
    obtain ⟨h1, h2⟩ := probe_permanent hprobe hperm
    exact ⟨hsame, result, hr, h1, hreason, key, payload, hkey, hkey', hprobe, h2⟩

/-- A sweep with candidates has probed. -/
theorem probeAll_ok {clock : Str → ℚ} {concurrency : ℤ} {selected : List ProbeContext}
    {summary : Summary} {candidates : List ProbeCandidate} {c : ProbeCandidate}
    (h : probeAll py opener clock concurrency selected = .ok (summary, candidates))
    (hc : c ∈ candidates) :
    ∃ observations,
      probePayloads py opener clock (selected.map ProbeContext.payload) = .ok observations ∧
        c ∈ candidatesOf selected observations := by
  unfold probeAll at h
  split_ifs at h with hne
  · rw [← (Prod.mk.inj (Except.ok.inj h)).2] at hc
    exact absurd hc (by simp)
  split at h
  · obtain ⟨observations, hobs, h⟩ := except_bind_ok h
    rw [← (Prod.mk.inj (Except.ok.inj h)).2] at hc
    exact ⟨observations, hobs, hc⟩
  · rw [← (Prod.mk.inj (Except.ok.inj h)).2] at hc
    exact absurd hc (by simp)

/-! ### One context -/

theorem candidatesOf_single (context : ProbeContext) (observation : Option Result) :
    candidatesOf [context] [observation] =
      ((archiveReason observation).map (⟨context.path, context.digest, ·⟩)).toList := by
  have hgroups : candidatesOf [context] [observation] =
      (judge context.path [(observation, context.digest)]).toList := by
    simp only [candidatesOf, List.map_cons, List.map_nil, List.zip_cons_cons, List.zip_nil_left,
      groups_single, List.filterMap_cons, List.filterMap_nil]
    rcases judge context.path [(observation, context.digest)] with _ | c <;> rfl
  rw [hgroups, judge, List.mapM_cons, List.mapM_nil]
  rcases archiveReason observation with _ | reason
  · simp
  · simp [firstReason]

/-- The key of a payload can be made if its token and account can be encoded. -/
theorem encodable_keyText (py : Py) (payload : Dict) : encodable (keyText py payload) =
    (encodable (authTokens py payload).access && encodable (authAccountId py payload)) := by
  have hcons : ∀ s : Str, encodable (0 :: s) = encodable s := fun s => by simp [encodable]
  have hflag : ∀ b : Prop, [Decidable b] → encodable (if b then lit "1" else lit "0") = true := by
    intro b _
    split_ifs <;> decide
  simp only [keyText, encodable_append, hcons, hflag, Bool.and_true]

/-! ### Where the contexts come from -/

/-- The contexts of a file carry its name and the digest of its bytes. -/
theorem mem_fileContexts {path : FileName} {file : File} {found : List ProbeContext} {x : ProbeContext}
    (h : fileContexts py path file = .ok found) (hx : x ∈ found) :
    x.path = path ∧ x.digest = py.sha256 file.bytes := by
  have hnil : Except.ok [] = (Except.ok found : Except PyError (List ProbeContext)) → False := by
    intro he
    rw [← Except.ok.inj he] at hx
    exact absurd hx (by simp)
  unfold fileContexts at h
  split_ifs at h with hlong
  · exact (hnil h).elim
  split at h
  · exact absurd h (by simp)
  · split_ifs at h with hagent
    · exact (hnil h).elim
    split at h
    · rw [← Except.ok.inj h] at hx
      obtain ⟨payload, -, rfl⟩ := List.mem_map.mp hx
      exact ⟨rfl, rfl⟩
    · exact (hnil h).elim
    · exact (hnil h).elim
    · exact absurd h (by simp)
  · exact (hnil h).elim

theorem mem_contextsFrom : ∀ {reads : List (FileName × Option File)} {total : ℕ}
    {selected : List ProbeContext} {x : ProbeContext}, contextsFrom py total reads = .ok selected →
    x ∈ selected → ∃ file found, (x.path, some file) ∈ reads ∧
      fileContexts py x.path file = .ok found ∧ x ∈ found
  | [], _, selected, x, h, hx => by
    rw [← Except.ok.inj h] at hx
    exact absurd hx (by simp)
  | (_, none) :: rest, total, selected, x, h, hx => by
    obtain ⟨file, found, hmem, hrest⟩ := @mem_contextsFrom rest total selected x h hx
    exact ⟨file, found, List.mem_cons_of_mem _ hmem, hrest⟩
  | (path, some file) :: rest, total, selected, x, h, hx => by
    obtain ⟨found, hfound, h⟩ := except_bind_ok h
    split_ifs at h with hlimit
    obtain ⟨more, hmore, h⟩ := except_bind_ok h
    rw [← Except.ok.inj h, List.mem_append] at hx
    rcases hx with hx | hx
    · obtain ⟨rfl, -⟩ := mem_fileContexts hfound hx
      exact ⟨file, found, List.mem_cons_self, hfound, hx⟩
    · obtain ⟨file', found', hmem, hrest⟩ := mem_contextsFrom hmore hx
      exact ⟨file', found', List.mem_cons_of_mem _ hmem, hrest⟩

/-- Every file that was read has given its contexts. -/
theorem contextsFrom_mem : ∀ {reads : List (FileName × Option File)} {total : ℕ}
    {selected : List ProbeContext} {path : FileName} {file : File},
    contextsFrom py total reads = .ok selected → (path, some file) ∈ reads →
      ∃ found, fileContexts py path file = .ok found ∧ ∀ x ∈ found, x ∈ selected
  | (_, none) :: rest, total, selected, path, file, h, hmem => by
    rcases List.mem_cons.mp hmem with he | hmem
    · exact absurd he (by simp)
    · exact @contextsFrom_mem rest total selected path file h hmem
  | (p, some f) :: rest, total, selected, path, file, h, hmem => by
    obtain ⟨found, hfound, h⟩ := except_bind_ok h
    split_ifs at h with hlimit
    obtain ⟨more, hmore, h⟩ := except_bind_ok h
    rw [← Except.ok.inj h]
    rcases List.mem_cons.mp hmem with he | hmem
    · obtain ⟨rfl, hf⟩ := Prod.mk.inj he
      rw [Option.some.inj hf]
      exact ⟨found, hfound, fun x hx => List.mem_append_left _ hx⟩
    · obtain ⟨found', hfound', hsub⟩ := contextsFrom_mem hmore hmem
      exact ⟨found', hfound', fun x hx => List.mem_append_right _ (hsub x hx)⟩

theorem mem_jsonNames {names : Finset FileName} {name : FileName} :
    name ∈ jsonNames names ↔ name ∈ names ∧ endsWith name.text (lit ".json") = true := by
  have hof : ∀ {s : Str}, FileName.ofStr? s = some name ↔ s = name.text := by
    intro s
    constructor
    · intro h
      unfold FileName.ofStr? at h
      split_ifs at h
      rw [← Option.some.inj h]
    · rintro rfl
      exact ofStr?_name name
  have hinj : ∀ n : FileName, n.text = name.text ↔ n = name := fun n =>
    ⟨fun h => Option.some.inj ((ofStr?_name n).symm.trans (h ▸ ofStr?_name name)), fun h => by rw [h]⟩
  simp only [jsonNames, List.mem_filterMap, Finset.mem_sort, Finset.mem_filter, Finset.mem_image, hof]
  constructor
  · rintro ⟨s, ⟨⟨n, hn, rfl⟩, hend⟩, hs⟩
    obtain rfl := (hinj n).mp hs
    exact ⟨hn, hend⟩
  · rintro ⟨hn, hend⟩
    exact ⟨name.text, ⟨⟨name, hn, rfl⟩, hend⟩, rfl⟩

end Cloudx.Local.Probe
