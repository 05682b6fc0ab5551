import Cloudx.Cloud.Sweep

/-! # Shared probes

`probe_accounts` probes each `credential_key` once and gives the result to every context with that
key. The key is the digest of a JSON text from which the access token, the account and the presence of
a refresh token can be read back (`credentialText_inj`), and a probe depends on nothing else
(`probe_congr`). So sharing changes nothing as long as no two different texts have the same digest. -/

namespace Cloudx.Cloud.SweepSharing

open Cloudx.Lib.Memo
open Cloudx.Python.Text Cloudx.Python.Value Cloudx.Python.Dump
open Cloudx.Shared.Credential Cloudx.Shared.Http
open Cloudx.Cloud.Auth Cloudx.Cloud.AuthScan Cloudx.Cloud.Quota Cloudx.Cloud.Sweep

/-! ### What a key determines -/

/-- **A credential's text determines its token, its account and whether it can be refreshed.** -/
theorem credentialText_inj {py : Py} {payload payload' : Dict}
    (h : credentialText py (payloadAuth py payload) = credentialText py (payloadAuth py payload')) :
    (authTokens py payload).access = (authTokens py payload').access ∧
      authAccountId py payload = authAccountId py payload' ∧
      ((authTokens py payload).refresh = [] ↔ (authTokens py payload').refresh = []) := by
  unfold credentialText at h
  simp only [authMode_payloadAuth, authTokens_payloadAuth, authAccountId_payloadAuth,
    List.append_assoc] at h
  obtain ⟨h1, h⟩ := quote_split (List.append_cancel_left h)
  obtain ⟨h2, h⟩ := quote_split (List.append_cancel_left h)
  refine ⟨h1, h2, ?_⟩
  have h3 := List.append_cancel_right (List.append_cancel_left (quote_split (List.append_cancel_left h)).2)
  by_cases ha : (authTokens py payload).refresh = [] <;>
    by_cases hb : (authTokens py payload').refresh = []
  · simp [ha, hb]
  · rw [if_neg (not_not.mpr ha), if_pos hb] at h3
    exact absurd h3 (by decide)
  · rw [if_pos ha, if_neg (not_not.mpr hb)] at h3
    exact absurd h3 (by decide)
  · simp [ha, hb]

/-- **A probe depends only on the token, the account and whether the credential can be refreshed.** -/
theorem probe_congr {py : Py} {payload payload' : Dict} (opener : Opener) (clock : Clock)
    (h1 : (authTokens py payload).access = (authTokens py payload').access)
    (h2 : authAccountId py payload = authAccountId py payload')
    (h3 : (authTokens py payload).refresh = [] ↔ (authTokens py payload').refresh = []) :
    probeAccountQuotaHttp py opener clock (payloadAuth py payload) =
      probeAccountQuotaHttp py opener clock (payloadAuth py payload') := by
  have horder : endpointCandidates py (payloadAuth py payload) =
      endpointCandidates py (payloadAuth py payload') := by
    rw [endpointCandidates, endpointCandidates, authMode_payloadAuth, authMode_payloadAuth]
  have hattempt : attempt py opener clock (payloadAuth py payload) =
      attempt py opener clock (payloadAuth py payload') := by
    funext endpoint
    simp only [attempt, authTokens_payloadAuth, authAccountId_payloadAuth, h1, h2, ne_eq, h3]
  simp only [probeAccountQuotaHttp, authTokens_payloadAuth, horder, hattempt, h1, ne_eq, h3]

/-! ### Probing every context -/

/-- One probe for each context, with its own credential. -/
def probeEach (py : Py) (opener : Opener) (clock : Clock) :
    List Context → Except PyError (List (Option ProbeResult))
  | [] => .ok []
  | context :: rest => do
    let probe ← probeAccountQuotaHttp py opener clock (payloadAuth py context.payload)
    let more ← probeEach py opener clock rest
    return probe :: more

/-- `probe_accounts` as it would be without sharing: one probe for each context. -/
def assessEach (py : Py) (opts : SweepOptions) (clock : Clock) (contexts : List Context)
    (digests : List Str) : Except PyError (Summary × List Candidate) :=
  let summarize := summarizeProbes opts.warningAvailableAccounts opts.checkedAt
  if contexts = [] then .ok (summarize [] .noAccounts 0 none, [])
  else match transport opts.opener with
    | .reachable => do
      let probes ← probeEach py opts.opener clock contexts
      return (summarize probes (.transport .reachable)
        (min (max 1 (min maxProbeConcurrency opts.probeConcurrency)) contexts.length)
        (some contexts.length), permanentCandidates contexts probes digests)
    | gate => .ok (summarize (contexts.map fun _ => none) (.transport gate) 0 none, [])

/-- A summary without the number of workers and of probes. -/
def results (summary : Summary) : Summary :=
  { summary with probeConcurrency := 0, uniqueProbeCredentials := none }

theorem probeEach_ok {py : Py} {opener : Opener} {clock : Clock} :
    ∀ {contexts : List Context} {probes : List (Option ProbeResult)},
      probeEach py opener clock contexts = .ok probes →
      List.Forall₂ (fun c r => probeAccountQuotaHttp py opener clock (payloadAuth py c.payload) = .ok r)
        contexts probes
  | [], probes, h => by rw [← Except.ok.inj h]; exact .nil
  | c :: rest, probes, h => by
    obtain ⟨r, hr, h⟩ := except_bind_ok h
    obtain ⟨more, hmore, h⟩ := except_bind_ok h
    rw [← Except.ok.inj h]
    exact .cons hr (probeEach_ok hmore)

theorem exists_probeEach {py : Py} {opener : Opener} {clock : Clock} : ∀ {contexts : List Context},
    (∀ c ∈ contexts, ∃ r, probeAccountQuotaHttp py opener clock (payloadAuth py c.payload) = .ok r) →
    ∃ probes, probeEach py opener clock contexts = .ok probes
  | [], _ => ⟨[], rfl⟩
  | c :: rest, h => by
    obtain ⟨r, hr⟩ := h c List.mem_cons_self
    obtain ⟨probes, hp⟩ := exists_probeEach fun c' hc' => h c' (List.mem_cons_of_mem _ hc')
    exact ⟨r :: probes, by rw [probeEach, hr, hp]; rfl⟩

/-- The text whose digest is the key of a context. -/
def contextText (py : Py) (context : Context) : Str :=
  credentialText py (payloadAuth py context.payload)

/-- No two texts that are hashed for some contexts have the same digest. -/
def NoCollision (py : Py) (contexts : List Context) : Prop :=
  ∀ c ∈ contexts, ∀ c' ∈ contexts,
    py.sha256 (utf8 (contextText py c)) = py.sha256 (utf8 (contextText py c')) →
      contextText py c = contextText py c'

/-- The access token and the account of a context can be encoded as UTF-8. -/
def Encodable (py : Py) (context : Context) : Prop :=
  encodable (authTokens py context.payload).access ∧ encodable (authAccountId py context.payload)

theorem credentialKey_of_encodable {py : Py} {context : Context} (h : Encodable py context) :
    credentialKey py (payloadAuth py context.payload) =
      .ok (py.sha256 (utf8 (contextText py context))) := by
  have henc : encodable (credentialText py (payloadAuth py context.payload)) = true := by
    rw [credentialKey_payloadAuth, h.1, h.2]; rfl
  rw [credentialKey, if_pos henc]
  rfl

/-- Contexts with the same key have the same probe. -/
theorem probe_of_sameKey {py : Py} {contexts : List Context} (opener : Opener) (clock : Clock)
    (hkeys : NoCollision py contexts) (henc : ∀ c ∈ contexts, Encodable py c) :
    ∀ a ∈ credentials py contexts, ∀ a' ∈ credentials py contexts, ∀ k,
      credentialKey py a = .ok k → credentialKey py a' = .ok k →
        probeAccountQuotaHttp py opener clock a = probeAccountQuotaHttp py opener clock a' := by
  intro a ha a' ha' k hk hk'
  obtain ⟨c, hc, rfl⟩ := List.mem_map.mp ha
  obtain ⟨c', hc', rfl⟩ := List.mem_map.mp ha'
  rw [credentialKey_of_encodable (henc c hc)] at hk
  rw [credentialKey_of_encodable (henc c' hc')] at hk'
  obtain ⟨h1, h2, h3⟩ := credentialText_inj
    (hkeys c hc c' hc' (Except.ok.inj (hk.trans hk'.symm)))
  exact probe_congr opener clock h1 h2 h3

/-- **Shared probes are the probes of each context.** -/
theorem probeCredentials_eq {py : Py} {contexts : List Context} {opener : Opener} {clock : Clock}
    (hkeys : NoCollision py contexts) (henc : ∀ c ∈ contexts, Encodable py c)
    {probes : List (Option ProbeResult)} (h : probeEach py opener clock contexts = .ok probes) :
    probeCredentials py opener (fun _ => clock) (credentials py contexts) = .ok probes := by
  rw [probeCredentials, shared_ok_iff (probe_of_sameKey opener clock hkeys henc), credentials,
    List.forall₂_map_left_iff]
  refine List.forall₂_iff_get.mpr ⟨(probeEach_ok h).length_eq, fun i hi hi' => ?_⟩
  exact ⟨_, credentialKey_of_encodable (henc _ (List.get_mem contexts ⟨i, hi⟩)),
    (probeEach_ok h).get hi hi'⟩

/-- **Sharing the probes of a sweep changes nothing of its outcome.** If no two hashed texts collide,
the clock stands still, every token and account can be encoded and no probe raises, then a sweep has
the counts, the state and the candidates that one probe for each context would give, for every
concurrency. -/
theorem shared_probes_exact (py : Py) (opts : SweepOptions) (clock : Clock) (contexts : List Context)
    (digests : List Str) (hkeys : NoCollision py contexts) (henc : ∀ c ∈ contexts, Encodable py c)
    (hok : ∀ c ∈ contexts, ∃ r,
      probeAccountQuotaHttp py opts.opener clock (payloadAuth py c.payload) = .ok r) :
    ∃ summary summary' candidates,
      assess py { opts with clock := fun _ => clock } contexts digests = .ok (summary, candidates) ∧
      assessEach py opts clock contexts digests = .ok (summary', candidates) ∧
      results summary = results summary' := by
  obtain ⟨probes, hprobes⟩ := exists_probeEach hok
  unfold assess assessEach
  by_cases hne : contexts = []
  · simp only [if_pos hne]
    exact ⟨_, _, _, rfl, rfl, rfl⟩
  simp only [if_neg hne]
  rcases transport opts.opener with _ | _ | _
  · simp only [probeCredentials_eq hkeys henc hprobes, hprobes]
    exact ⟨_, _, _, rfl, rfl, rfl⟩
  · exact ⟨_, _, _, rfl, rfl, rfl⟩
  · exact ⟨_, _, _, rfl, rfl, rfl⟩

theorem valid_bJson : ValidName (lit "b.json") := by decide

theorem valid_cJson : ValidName (lit "c.json") := by decide

/-- Two files with one credential and one with another. -/
def sampleContexts : List Context :=
  authContexts onePy [] [([aJson], .data [(lit "access_token", .str (lit "a.b.c"))]),
    ([⟨lit "b.json", valid_bJson⟩], .data [(lit "access_token", .str (lit "a.b.c"))]),
    ([⟨lit "c.json", valid_cJson⟩], .data [(lit "access_token", .str (lit "d.e.f"))])]

/-- A sweep whose requests are all answered that the account is deactivated. -/
def sampleSweep : SweepOptions :=
  ⟨fun _ => .httpError 403 (some (utf8 (lit "account_deactivated"))), fun _ => ⟨0, 0⟩, [], [], 3, 32⟩

/-- Three contexts with two credentials, all of them candidates with and without sharing. -/
theorem shared_probes_exact_three :
    ∃ summary summary' candidates, assess onePy sampleSweep sampleContexts
        [lit "d", lit "e", lit "f"] = .ok (summary, candidates) ∧
      assessEach onePy sampleSweep ⟨0, 0⟩ sampleContexts [lit "d", lit "e", lit "f"] =
        .ok (summary', candidates) ∧ results summary = results summary' ∧ candidates.length = 3 := by
  have hok : ∀ c ∈ sampleContexts, ∃ r, probeAccountQuotaHttp onePy sampleSweep.opener ⟨0, 0⟩
      (payloadAuth onePy c.payload) = .ok r := by
    have hrun : ∀ c ∈ sampleContexts, (probeAccountQuotaHttp onePy sampleSweep.opener ⟨0, 0⟩
        (payloadAuth onePy c.payload)).toBool = true := by decide +kernel
    intro c hc
    have hc := hrun c hc
    rcases hr : probeAccountQuotaHttp onePy sampleSweep.opener ⟨0, 0⟩
      (payloadAuth onePy c.payload) with e | r
    · rw [hr] at hc; exact absurd hc (by simp [Except.toBool])
    · exact ⟨r, rfl⟩
  obtain ⟨summary, summary', candidates, h1, h2, h3⟩ := shared_probes_exact onePy sampleSweep ⟨0, 0⟩
    sampleContexts [lit "d", lit "e", lit "f"] (by unfold NoCollision; decide +kernel)
    (by unfold Encodable; decide +kernel) hok
  refine ⟨summary, summary', candidates, h1, h2, h3, ?_⟩
  have hcount : (assessEach onePy sampleSweep ⟨0, 0⟩ sampleContexts
      [lit "d", lit "e", lit "f"]).map (fun r => r.2.length) = .ok 3 := by decide +kernel
  rw [h2] at hcount
  exact Except.ok.inj hcount

end Cloudx.Cloud.SweepSharing
