import Cloudx.Cloud.AuthScan
import Cloudx.Cloud.Sweep
import Cloudx.Local.Probe

/-! # When a sweep archives

The cloud and the local sweep are two programs with one purpose: a file is a candidate only if every
account in it failed for good. `archived_only_when_dead` says so of both.

What both probes rule on one credential is the same text: `ruling` is the reason for which it is
condemned, if it is. The cloud archives for every ruling (`cloudDecision_eq`), the local package only
for those in its own list of reasons (`localDecision_eq`), and that list lacks one. -/

namespace Cloudx.Joint.Decisions

open Cloudx.Lib.Memo
open Cloudx.Python.Text Cloudx.Python.Value Cloudx.Python.Dump
open Cloudx.Shared.Credential Cloudx.Shared.Http
open Cloudx.Cloud Cloudx.Cloud.Disk Cloudx.Cloud.Auth Cloudx.Cloud.AuthScan
open Cloudx.Local

/-! ### Only dead files are candidates -/

/-- **A file is a candidate only if all its accounts failed for good, and an account fails for good
only for a cause**, in both packages. A cause is never the quota. -/
theorem archived_only_when_dead (py : Py) :
    (∀ opener clock auth result,
      Quota.probeAccountQuotaHttp py opener clock auth = .ok (some result) →
      result.permanentAuthFailure = true →
      Quota.IsPermanent result ∧ Quota.Cause py opener clock auth) ∧
    (∀ opts contexts digests summary candidates, digests.length = contexts.length →
      Sweep.assess py opts contexts digests = .ok (summary, candidates) → ∀ c ∈ candidates,
      c.authSha256 ≠ [] ∧ (∃ x ∈ contexts, x.path = c.path) ∧
      ∀ (i : ℕ) x, contexts[i]? = some x → x.path = c.path →
        digests[i]? = some c.authSha256 ∧
        ∃ result, Sweep.ProbedDead py opts.opener opts.clock x result) ∧
    (∀ opener now payload result, Probe.probe py opener now payload = .ok (some result) →
      result.permanent = true → Probe.IsPermanent result ∧ Probe.Cause py opener now payload) ∧
    (∀ opener clock concurrency reads selected summary candidates,
      Probe.contexts py reads = .ok selected →
      Probe.probeAll py opener clock concurrency selected = .ok (summary, candidates) →
      ∀ c ∈ candidates, c.digest ≠ [] ∧ (∃ x ∈ selected, x.path = c.path) ∧
      ∀ x ∈ selected, x.path = c.path → x.digest = c.digest ∧
        ∃ result, Probe.ProbedDead py opener clock x result) := by
  refine ⟨fun _ _ _ _ h hp => Quota.probe_permanent h hp, ?_,
    fun _ _ _ _ h hp => Probe.probe_permanent h hp, ?_⟩
  · intro opts contexts digests summary candidates hlen h c hc
    obtain ⟨-, probes, hprobes, hc⟩ := Sweep.assess_ok h hc
    obtain ⟨h1, h2, h3⟩ := Sweep.candidate_dead hprobes hlen hc
    refine ⟨h1, h2, fun i x hx hpath => ?_⟩
    obtain ⟨hd, result, -, hdead⟩ := h3 i x hx hpath
    exact ⟨hd, result, hdead⟩
  · intro opener clock concurrency reads selected summary candidates hreads h c hc
    obtain ⟨observations, hobs, hc⟩ := Probe.probeAll_ok h hc
    obtain ⟨⟨x, hx, hpath⟩, hall⟩ := Probe.candidate_dead hobs hc
    have hdead : ∀ x ∈ selected, x.path = c.path → x.digest = c.digest ∧
        ∃ result, Probe.ProbedDead py opener clock x result := by
      intro x hx hpath
      obtain ⟨i, hi⟩ := List.getElem?_of_mem hx
      obtain ⟨hd, result, -, hdead⟩ := hall i x hi hpath
      exact ⟨hd, result, hdead⟩
    refine ⟨?_, ⟨x, hx, hpath⟩, hdead⟩
    obtain ⟨file, found, -, hfound, hmem⟩ := Probe.mem_contextsFrom hreads hx
    rw [← (hdead x hx hpath).1, (Probe.mem_fileContexts hfound hmem).2]
    exact py.sha256_ne_nil _

/-- Every request is answered that the account is deactivated. -/
def deactivating : Opener := fun _ => .httpError 403 (some (utf8 (lit "account_deactivated")))

/-- A credential with only an access token. -/
def sampleDocument : Dict := [(lit "access_token", .str (lit "a.b.c"))]

/-- Its file. -/
def sampleFile : File := jsonFile onePy true sampleDocument

/-- The cloud context of the file as `/a.json`. -/
def sampleContexts : List Context := authContexts onePy [] [([aJson], .data sampleDocument)]

/-- The local context of the file. -/
def sampleSelected : List Probe.ProbeContext :=
  (Probe.contexts onePy [(aJson, some sampleFile)]).toOption.getD []

/-- A cloud sweep at the time zero. -/
def sampleSweep (opener : Opener) : Sweep.SweepOptions :=
  ⟨opener, fun _ => ⟨0, 0⟩, [], [], 3, 32⟩

theorem map_snd_ok {ε α β : Type} {x : Except ε (α × β)} {b : β} (h : x.map Prod.snd = .ok b) :
    ∃ a, x = .ok (a, b) := by
  rcases x with e | ⟨a, b'⟩
  · exact absurd h (by simp [Except.map])
  · exact ⟨a, by rw [← Except.ok.inj h]⟩

/-- The credential is a candidate in both packages, and it is dead in both. -/
theorem archived_only_when_dead_one :
    (∀ x ∈ sampleContexts, ∃ result,
      Sweep.ProbedDead onePy deactivating (fun _ => ⟨0, 0⟩) x result) ∧ sampleContexts.length = 1 ∧
    (∀ x ∈ sampleSelected, ∃ result, Probe.ProbedDead onePy deactivating (fun _ => 0) x result) ∧
    sampleSelected.length = 1 := by
  obtain ⟨-, hcloud, -, hlocal⟩ := archived_only_when_dead onePy
  refine ⟨fun x hx => ?_, by decide +kernel, fun x hx => ?_, by decide +kernel⟩
  · obtain ⟨summary, h⟩ := map_snd_ok (x := Sweep.assess onePy (sampleSweep deactivating)
      sampleContexts [lit "d"]) (b := [⟨[aJson], lit "d", .accountDeactivated⟩]) (by decide +kernel)
    obtain ⟨-, -, hall⟩ := hcloud (sampleSweep deactivating) sampleContexts [lit "d"] summary _
      (by decide +kernel) h ⟨[aJson], lit "d", .accountDeactivated⟩ (by simp)
    obtain ⟨i, hi⟩ := List.getElem?_of_mem hx
    have hpath : ∀ x ∈ sampleContexts, x.path = [aJson] := by decide +kernel
    exact (hall i x hi (hpath x hx)).2
  · obtain ⟨summary, h⟩ := map_snd_ok (x := Probe.probeAll onePy deactivating (fun _ => 0) 32
      sampleSelected) (b := [⟨aJson, onePy.sha256 sampleFile.bytes, .accountDeactivated⟩])
      (by decide +kernel)
    obtain ⟨-, -, hall⟩ := hlocal deactivating (fun _ => 0) 32 [(aJson, some sampleFile)]
      sampleSelected summary _ (by decide +kernel) h
      ⟨aJson, onePy.sha256 sampleFile.bytes, .accountDeactivated⟩ (by simp)
    have hpath : ∀ x ∈ sampleSelected, x.path = aJson := by decide +kernel
    exact (hall x hx (hpath x hx)).2

/-! ### What both probes rule -/

/-- What a probe knows of a credential. -/
structure Credential where
  access : Str
  hasRefresh : Bool
  accountId : Str
deriving DecidableEq

/-- The credential in a payload. -/
def credentialOf (py : Py) (payload : Dict) : Credential :=
  ⟨(authTokens py payload).access, (authTokens py payload).refresh ≠ [], authAccountId py payload⟩

/-- The reason for which a failure condemns a credential; nothing if it has no result at all. -/
def condemnation (py : Py) (hasRefresh : Bool) (status : ℤ) (body : Bytes) :
    Option (Option Reason) :=
  if status = 429 ∨ bodyClassification py body = .quota then some none
  else match bodyClassification py body with
    | .permanent reason => some (some reason)
    | _ =>
      if status = 401 then some (if hasRefresh then none else some .authenticationUnauthorized)
      else none

/-- The reason for which an answer condemns a credential; nothing if it has no result at all. -/
def conclusion (py : Py) (hasRefresh : Bool) : Answer → Option (Option Reason)
  | .raised => none
  | .httpError code body => condemnation py hasRefresh code (boundedErrorBody body)
  | .reply status body =>
    if maxResponseBytes < body.length then none
    else if 400 ≤ status then condemnation py hasRefresh status body
    else match py.loads body with
      | .raised _ => some none
      | .value (.obj _) => some none
      | _ => none

/-- The usage endpoints in the order in which both probes ask them. -/
def endpoints : List Str := [usageEndpointChatgpt, usageEndpointCodexapi]

/-- The answer to a request about a credential. -/
def answerTo (opener : Opener) (credential : Credential) (endpoint : Str) : Answer :=
  opener ⟨endpoint, usageHeaders endpoint credential.access credential.accountId⟩

/-- A credential that a sweep comes to probe: the transport is there, the access token looks like
one, and the texts can be encoded. -/
def probed (opener : Opener) (credential : Credential) : Bool :=
  transport opener = .reachable && 2 ≤ dots credential.access &&
    (encodable credential.access && encodable credential.accountId)

/-- The reason for which the probe of a credential condemns it at the time `now`. -/
def sentence (py : Py) (opener : Opener) (now : ℚ) (credential : Credential) : Option Reason :=
  match Quota.tokenNeedsRefresh py now credential.access with
  | .error _ => none
  | .ok true => if credential.hasRefresh then none else some .missingToken
  | .ok false => (endpoints.findSome? fun endpoint =>
      conclusion py credential.hasRefresh (answerTo opener credential endpoint)).join

/-- The reason for which a sweep condemns a credential. -/
def ruling (py : Py) (opener : Opener) (now : ℚ) (credential : Credential) : Option Reason :=
  if probed opener credential then sentence py opener now credential else none

/-- The reason for which the cloud archives a file with one context, if it does. -/
def cloudDecision (py : Py) (opts : Sweep.SweepOptions) (clock : Quota.Clock) (context : Context)
    (digest : Str) : Option Reason :=
  match Sweep.assess py { opts with clock := fun _ => clock } [context] [digest] with
  | .ok (_, candidates) =>
    (candidates.find? fun c => c.path = context.path).map Sweep.Candidate.reason
  | .error _ => none

/-- The reason for which the local package archives a file with one context, if it does. -/
def localDecision (py : Py) (opener : Opener) (now : ℚ) (concurrency : ℤ)
    (context : Probe.ProbeContext) : Option Reason :=
  match Probe.probeAll py opener (fun _ => now) concurrency [context] with
  | .ok (_, candidates) =>
    (candidates.find? fun c => c.path = context.path).map Probe.ProbeCandidate.reason
  | .error _ => none

section

variable {py : Py} {opener : Opener}

theorem verdict_classifiedHttpFailure (clock : Quota.Clock) (endpoint : Str) (hasRefresh : Bool)
    (status : ℤ) (body : Bytes) : verdict (fun r => Sweep.archiveReason (some r))
      (.ok (Quota.classifiedHttpFailure py clock endpoint hasRefresh status body) :
        Except PyError _) = condemnation py hasRefresh status body := by
  unfold Quota.classifiedHttpFailure condemnation
  simp only
  by_cases hq : status = 429 ∨ bodyClassification py body = .quota
  · rw [if_pos hq, if_pos hq]; rfl
  rw [if_neg hq, if_neg hq]
  rcases hb : bodyClassification py body with _ | reason | _
  · exact absurd (Or.inr hb) hq
  · obtain ⟨-, m, hm, rfl, -⟩ := bodyClassification_permanent hb
    have hmem : m.2 ∈ Quota.permanentAuthFailureReasons :=
      List.mem_cons_of_mem _ (List.mem_map_of_mem hm)
    simp [verdict, Sweep.archiveReason, Quota.markPermanent, hmem]
  · simp only
    split_ifs
    · rfl
    · rfl
    · rfl

/-- The local classification follows that of the cloud. -/
theorem classifiedFailure_eq (hasRefresh : Bool) (status : ℤ) (body : Bytes) :
    Probe.classifiedFailure py status body hasRefresh =
      if status = 429 ∨ bodyClassification py body = .quota then some (Probe.plain .limited)
      else match bodyClassification py body with
        | .permanent reason => some (Probe.permanentFailure reason)
        | _ =>
          if status = 401 then
            if hasRefresh then some (Probe.plain .login)
            else some (Probe.permanentFailure .authenticationUnauthorized)
          else none := by
  unfold Probe.classifiedFailure bodyClassification
  simp only
  by_cases hq : quotaMarkers.any fun marker => contains marker (foldedText py body)
  · simp only [hq, if_true, or_true]
  · simp only [hq]
    generalize List.find? _ permanentMarkers = found
    cases found with
    | none => simp
    | some m => simp

theorem verdict_classifiedFailure (hasRefresh : Bool) (status : ℤ) (body : Bytes) :
    verdict (fun r => Probe.archiveReason (some r))
      (.ok (Probe.classifiedFailure py status body hasRefresh) : Except PyError _) =
      (condemnation py hasRefresh status body).map (Option.filter (· ∈ Probe.permanentReasons)) := by
  rw [classifiedFailure_eq, condemnation]
  by_cases hq : status = 429 ∨ bodyClassification py body = .quota
  · rw [if_pos hq, if_pos hq]; rfl
  rw [if_neg hq, if_neg hq]
  rcases hb : bodyClassification py body with _ | reason | _
  · exact absurd (Or.inr hb) hq
  · rfl
  · simp only
    split_ifs
    · rfl
    · rfl
    · rfl

theorem verdict_judgeAnswer_cloud (clock : Quota.Clock) (endpoint : Str) (hasRefresh : Bool)
    (answer : Answer) : verdict (fun r => Sweep.archiveReason (some r))
      (Quota.judgeAnswer py clock endpoint hasRefresh answer) = conclusion py hasRefresh answer := by
  cases answer with
  | raised => rfl
  | httpError code body => exact verdict_classifiedHttpFailure clock endpoint hasRefresh _ _
  | reply status body =>
    unfold Quota.judgeAnswer conclusion
    simp only
    split_ifs with hlong h400
    · rfl
    · exact verdict_classifiedHttpFailure clock endpoint hasRefresh _ _
    · rcases py.loads body with v | _ | _ | e
      · cases v with
        | obj payload =>
          rcases hs : Quota.buildProbeSuccess py clock payload endpoint with e | r
          · simp only [hs]; rfl
          · have := Quota.buildProbeSuccess_not_permanent hs
            simp [hs, Except.map, verdict, Sweep.archiveReason, this]
        | _ => rfl
      · rfl
      · rfl
      · rfl

theorem verdict_judgeAnswer_local (hasRefresh : Bool) (answer : Answer) :
    verdict (fun r => Probe.archiveReason (some r)) (Probe.judgeAnswer py hasRefresh answer) =
      (conclusion py hasRefresh answer).map (Option.filter (· ∈ Probe.permanentReasons)) := by
  cases answer with
  | raised => rfl
  | httpError code body => exact verdict_classifiedFailure hasRefresh _ _
  | reply status body =>
    unfold Probe.judgeAnswer conclusion
    simp only
    split_ifs with hlong h400
    · rfl
    · exact verdict_classifiedFailure hasRefresh _ _
    · rcases py.loads body with v | _ | _ | e
      · cases v <;> rfl
      · rfl
      · rfl
      · rfl

/-- The two probes read the expiry of a token alike. -/
theorem atMost_jwtExpiry (now : ℚ) (token : Str) :
    (Probe.jwtExpiry py token).map (Probe.atMost (now + Probe.refreshSkewSeconds)) =
      Quota.tokenNeedsRefresh py now token := by
  unfold Probe.jwtExpiry Quota.tokenNeedsRefresh
  rcases decodeJwtPayload py token with e | claims
  · rfl
  · change (Probe.floatOf py (get claims (lit "exp"))).map _ = Quota.floatLE py _ _
    rcases get claims (lit "exp") with _ | _ | n | x | _ | _ | _
    · rfl
    · rfl
    · simp only [Probe.floatOf, Quota.floatLE]
      rcases py.float n with _ | q
      · rfl
      · rfl
    · cases x <;> rfl
    · rfl
    · rfl
    · rfl

/-- The verdict of a cloud probe on a credential that it comes to ask about. -/
theorem verdict_probe_cloud (clock : Quota.Clock) (payload : Dict)
    (h : 2 ≤ dots (authTokens py payload).access) :
    (verdict (fun r => Sweep.archiveReason (some r))
      (Quota.probeAccountQuotaHttp py opener clock (payloadAuth py payload))).join =
      sentence py opener clock.started (credentialOf py payload) := by
  have hsupported : Quota.tokenSupported (authTokens py payload).access = true := by
    simpa [Quota.tokenSupported] using h
  have horder : Quota.endpointCandidates py (payloadAuth py payload) = endpoints := by
    rw [Quota.endpointCandidates, authMode_payloadAuth]
    rfl
  unfold Quota.probeAccountQuotaHttp sentence
  simp only [authTokens_payloadAuth, hsupported, Bool.not_true, Bool.false_eq_true, if_false,
    credentialOf, decide_eq_true_eq]
  rcases Quota.tokenNeedsRefresh py clock.started (authTokens py payload).access with e | needs
  · rfl
  cases needs with
  | true =>
    simp only [bind, Except.bind, if_true]
    split_ifs
    · rfl
    · rfl
  | false =>
    simp only [bind, Except.bind, Bool.false_eq_true, if_false]
    rw [horder, verdict_firstResult]
    congr 2
    funext endpoint
    rw [Quota.attempt, authTokens_payloadAuth, authAccountId_payloadAuth, verdict_judgeAnswer_cloud]
    rfl

theorem join_map_filter (p : Reason → Bool) : ∀ o : Option (Option Reason),
    (o.map (Option.filter p)).join = o.join.filter p
  | none => rfl
  | some _ => rfl

/-- The verdict of a local probe, which has its own list of reasons. -/
theorem verdict_probe_local (now : ℚ) (payload : Dict) (h : 2 ≤ dots (authTokens py payload).access) :
    (verdict (fun r => Probe.archiveReason (some r)) (Probe.probe py opener now payload)).join =
      (sentence py opener now (credentialOf py payload)).filter (· ∈ Probe.permanentReasons) := by
  have hverdicts : (fun endpoint => verdict (fun r => Probe.archiveReason (some r))
      (Probe.attempt py opener payload endpoint)) =
      Option.map (Option.filter (· ∈ Probe.permanentReasons)) ∘ fun endpoint => conclusion py
        ((authTokens py payload).refresh ≠ [])
        (answerTo opener (credentialOf py payload) endpoint) := by
    funext endpoint
    exact verdict_judgeAnswer_local _ _
  unfold Probe.probe sentence
  simp only [if_neg (Nat.not_lt.mpr h)]
  rw [← atMost_jwtExpiry]
  simp only [credentialOf, decide_eq_true_eq]
  rcases Probe.jwtExpiry py (authTokens py payload).access with e | expiry
  · rfl
  simp only [bind, Except.bind, Except.map]
  by_cases hnear : Probe.atMost (now + Probe.refreshSkewSeconds) expiry
  · simp only [hnear, if_true]
    split_ifs
    · rfl
    · rfl
  · simp only [hnear, Bool.false_eq_true, if_false]
    rw [verdict_firstResult, hverdicts, ← List.map_findSome?]
    exact join_map_filter _ _

/-- Whether a sweep comes to probe a credential at all. -/
def keyable (opener : Opener) (credential : Credential) : Bool :=
  transport opener = .reachable && (encodable credential.access && encodable credential.accountId)

theorem probed_eq (credential : Credential) :
    probed opener credential = (keyable opener credential && 2 ≤ dots credential.access) := by
  unfold probed keyable
  rw [Bool.and_assoc, Bool.and_assoc]
  congr 1
  exact Bool.and_comm _ _

/-- The decision of the cloud is the verdict of its probe. -/
theorem cloudDecision_verdict (opts : Sweep.SweepOptions) (clock : Quota.Clock) (context : Context)
    {digest : Str} (hd : digest ≠ []) : cloudDecision py opts clock context digest =
      if keyable opts.opener (credentialOf py context.payload) then
        (verdict (fun r => Sweep.archiveReason (some r))
          (Quota.probeAccountQuotaHttp py opts.opener clock (payloadAuth py context.payload))).join
      else none := by
  unfold cloudDecision Sweep.assess keyable
  simp only [List.cons_ne_nil, if_false]
  rcases transport opts.opener with _ | _ | _
  · have hkey : encodable (Sweep.credentialText py (payloadAuth py context.payload)) =
        (encodable (credentialOf py context.payload).access &&
          encodable (credentialOf py context.payload).accountId) :=
      Sweep.credentialKey_payloadAuth py context.payload
    simp only [decide_true, Bool.true_and, ← hkey, Sweep.probeCredentials, Sweep.credentials,
      List.map_cons, List.map_nil, shared_single, Sweep.credentialKey]
    by_cases henc : encodable (Sweep.credentialText py (payloadAuth py context.payload))
    · simp only [henc, if_true, bind, Except.bind]
      rcases Quota.probeAccountQuotaHttp py opts.opener clock (payloadAuth py context.payload) with
        e | r
      · rfl
      · simp only [pure, Except.pure, Sweep.permanentCandidates_single context r hd]
        rcases r with _ | r
        · rfl
        · simp only [verdict, Option.join_some]
          rcases Sweep.archiveReason (some r) with _ | reason
          · rfl
          · simp
    · simp only [henc, Bool.false_eq_true, if_false]
      rfl
  · simp
  · simp

/-- The decision of the local package is the verdict of its probe. -/
theorem localDecision_verdict (now : ℚ) (concurrency : ℤ) (context : Probe.ProbeContext) :
    localDecision py opener now concurrency context =
      if keyable opener (credentialOf py context.payload) then
        (verdict (fun r => Probe.archiveReason (some r))
          (Probe.probe py opener now context.payload)).join
      else none := by
  unfold localDecision Probe.probeAll keyable
  simp only [List.cons_ne_nil, if_false]
  rcases transport opener with _ | _ | _
  · have hkey : encodable (Probe.keyText py context.payload) =
        (encodable (credentialOf py context.payload).access &&
          encodable (credentialOf py context.payload).accountId) :=
      Probe.encodable_keyText py context.payload
    simp only [decide_true, Bool.true_and, ← hkey, Probe.probePayloads, List.map_cons, List.map_nil,
      shared_single, Probe.probeKey]
    by_cases henc : encodable (Probe.keyText py context.payload)
    · simp only [henc, if_true, bind, Except.bind]
      rcases Probe.probe py opener now context.payload with e | r
      · rfl
      · simp only [pure, Except.pure, Probe.candidatesOf_single context r]
        rcases r with _ | r
        · rfl
        · simp only [verdict, Option.join_some]
          rcases Probe.archiveReason (some r) with _ | reason
          · rfl
          · simp
    · simp only [henc, Bool.false_eq_true, if_false]
      rfl
  · simp
  · simp

/-- **The cloud archives a credential for every ruling.** -/
theorem cloudDecision_eq (opts : Sweep.SweepOptions) (clock : Quota.Clock) (context : Context)
    {digest : Str} (hd : digest ≠ []) : cloudDecision py opts clock context digest =
      ruling py opts.opener clock.started (credentialOf py context.payload) := by
  rw [cloudDecision_verdict opts clock context hd, ruling, probed_eq]
  by_cases hkey : keyable opts.opener (credentialOf py context.payload)
  · by_cases hdots : 2 ≤ dots (authTokens py context.payload).access
    · have hprobed : (keyable opts.opener (credentialOf py context.payload) &&
          2 ≤ dots (credentialOf py context.payload).access) = true := by
        rw [hkey, Bool.true_and]; exact decide_eq_true hdots
      rw [if_pos hkey, verdict_probe_cloud clock context.payload hdots, if_pos hprobed]
    · have hnone : Quota.probeAccountQuotaHttp py opts.opener clock
          (payloadAuth py context.payload) = .ok none := by
        simp [Quota.probeAccountQuotaHttp, authTokens_payloadAuth, Quota.tokenSupported, hdots]
      rw [if_pos hkey, hnone]
      simp [credentialOf, hdots, verdict]
  · simp [hkey]

/-- **The local package archives a credential for the rulings in its list of reasons.** -/
theorem localDecision_eq (now : ℚ) (concurrency : ℤ) (context : Probe.ProbeContext) :
    localDecision py opener now concurrency context =
      (ruling py opener now (credentialOf py context.payload)).filter
        (· ∈ Probe.permanentReasons) := by
  rw [localDecision_verdict now concurrency context, ruling, probed_eq]
  by_cases hkey : keyable opener (credentialOf py context.payload)
  · by_cases hdots : 2 ≤ dots (authTokens py context.payload).access
    · have hprobed : (keyable opener (credentialOf py context.payload) &&
          2 ≤ dots (credentialOf py context.payload).access) = true := by
        rw [hkey, Bool.true_and]; exact decide_eq_true hdots
      rw [if_pos hkey, verdict_probe_local now context.payload hdots, if_pos hprobed]
    · have hnone : Probe.probe py opener now context.payload = .ok none := by
        simp [Probe.probe, Nat.lt_of_not_le hdots]
      rw [if_pos hkey, hnone]
      simp [credentialOf, hdots, verdict]
  · simp [hkey]

/-! ### Where the two sweeps differ -/

/-- A credential without a refresh token whose first result is a bare 401: it is probed, its access
token is not about to expire, no answer before has a result, and the body has neither a quota marker
nor a permanent one. -/
structure Unauthorized (py : Py) (opener : Opener) (now : ℚ) (credential : Credential) : Prop where
  probed : probed opener credential = true
  fresh : Quota.tokenNeedsRefresh py now credential.access = .ok false
  stuck : credential.hasRefresh = false
  answered : ∃ before endpoint after body, endpoints = before ++ endpoint :: after ∧
    (∀ e ∈ before, conclusion py false (answerTo opener credential e) = none) ∧
    failureOf (answerTo opener credential endpoint) = some (401, body) ∧
    bodyClassification py body = .unknown

theorem condemnation_unauthorized {hasRefresh : Bool} {status : ℤ} {body : Bytes} :
    condemnation py hasRefresh status body = some (some .authenticationUnauthorized) ↔
      hasRefresh = false ∧ status = 401 ∧ bodyClassification py body = .unknown := by
  unfold condemnation
  by_cases hq : status = 429 ∨ bodyClassification py body = .quota
  · rw [if_pos hq]
    refine ⟨fun h => absurd h (by simp), fun ⟨_, h1, h2⟩ => ?_⟩
    rcases hq with hq | hq
    · omega
    · rw [h2] at hq; exact absurd hq (by simp)
  rw [if_neg hq]
  rcases hb : bodyClassification py body with _ | reason | _
  · exact absurd (Or.inr hb) hq
  · -- no marker has the reason of a bare 401
    obtain ⟨-, m, hm, rfl, -⟩ := bodyClassification_permanent hb
    have hother : ∀ m ∈ permanentMarkers, m.2 ≠ Reason.authenticationUnauthorized := by decide
    simp [hother m hm]
  · by_cases h401 : status = 401 <;> cases hasRefresh <;> simp [h401]

theorem conclusion_unauthorized {hasRefresh : Bool} {answer : Answer} :
    conclusion py hasRefresh answer = some (some .authenticationUnauthorized) ↔
      hasRefresh = false ∧ ∃ body, failureOf answer = some (401, body) ∧
        bodyClassification py body = .unknown := by
  cases answer with
  | raised => simp [conclusion, failureOf]
  | httpError code body =>
    rw [conclusion, condemnation_unauthorized, failureOf]
    constructor
    · rintro ⟨h1, rfl, h2⟩
      exact ⟨h1, _, rfl, h2⟩
    · rintro ⟨h1, body', hb, h2⟩
      obtain ⟨rfl, rfl⟩ := Prod.mk.inj (Option.some.inj hb)
      exact ⟨h1, rfl, h2⟩
  | reply status body =>
    unfold conclusion failureOf
    simp only
    by_cases hlong : maxResponseBytes < body.length
    · rw [if_pos hlong, if_neg (by omega)]
      simp
    by_cases h400 : 400 ≤ status
    · rw [if_neg hlong, if_pos h400, condemnation_unauthorized, if_pos ⟨h400, by omega⟩]
      constructor
      · rintro ⟨h1, rfl, h2⟩
        exact ⟨h1, _, rfl, h2⟩
      · rintro ⟨h1, body', hb, h2⟩
        obtain ⟨rfl, rfl⟩ := Prod.mk.inj (Option.some.inj hb)
        exact ⟨h1, rfl, h2⟩
    · rw [if_neg hlong, if_neg h400, if_neg (by omega)]
      rcases py.loads body with v | _ | _ | e
      · cases v <;> simp
      · simp
      · simp
      · simp

/-- **The ruling of a bare 401.** -/
theorem ruling_unauthorized {now : ℚ} {credential : Credential} :
    ruling py opener now credential = some .authenticationUnauthorized ↔
      Unauthorized py opener now credential := by
  unfold ruling sentence
  constructor
  · intro h
    by_cases hprobed : probed opener credential
    swap
    · rw [if_neg hprobed] at h; exact absurd h (by simp)
    rw [if_pos hprobed] at h
    split at h
    · exact absurd h (by simp)
    · cases hr : credential.hasRefresh <;> simp [hr] at h
    · next hfresh =>
      rw [Option.join_eq_some_iff, List.findSome?_eq_some_iff] at h
      obtain ⟨before, endpoint, after, hsplit, hthis, hbefore⟩ := h
      obtain ⟨hstuck, body, hfail, hbody⟩ := conclusion_unauthorized.mp hthis
      rw [hstuck] at hbefore
      exact ⟨hprobed, hfresh, hstuck, before, endpoint, after, body, hsplit, hbefore, hfail, hbody⟩
  · rintro ⟨hprobed, hfresh, hstuck, before, endpoint, after, body, hsplit, hbefore, hfail, hbody⟩
    rw [if_pos hprobed, hfresh]
    simp only
    rw [Option.join_eq_some_iff, List.findSome?_eq_some_iff, hstuck]
    exact ⟨before, endpoint, after, hsplit, conclusion_unauthorized.mpr ⟨rfl, body, hfail, hbody⟩,
      hbefore⟩

end

/-- Every request is answered with a bare 401. -/
def unauthorizing : Opener := fun _ => .httpError 401 (some [])

/-- A cloud context of the sample credential. -/
def sampleContext : Context := ⟨[], [aJson], invalidRecord [aJson] [] [], sampleDocument⟩

/-- A local context of the sample credential. -/
def sampleProbeContext : Probe.ProbeContext := ⟨aJson, lit "d", sampleDocument⟩

end Cloudx.Joint.Decisions
