import Cloudx.Cloud.Health
import Cloudx.Python.Dump

/-! # The capacity verdict

`capacity.py` reads the health document again and goes through an ordered chain of branches to one of
six states. The pool is called healthy or exhausted only on counts that add up and are fresh; what
makes an observation look fresh although it is not is a time later than the clock. -/

namespace Cloudx.Cloud.Capacity

open Cloudx.Python.Text Cloudx.Python.Value Cloudx.Python.Dump
open Cloudx.Python.Clock (stamp)
open Cloudx.Cloud.Health

variable (py : Py)

/-! ### The verdict -/

/-- `PROBE_REASONS` -/
def probeReasons : List (Str × Str) :=
  [(lit "credential_invalid", lit "gateway_credential_invalid"),
    (lit "network", lit "gateway_network_failure"),
    (lit "authentication", lit "gateway_authentication_failed"),
    (lit "client_response", lit "gateway_client_response"),
    (lit "server_response", lit "gateway_server_response")]

/-- `_protocol_range` -/
def protocolRange (low high : ℤ) : Except PyError Dict :=
  if low < 1 ∨ high < low then .error .value
  else .ok [(lit "min", .int low), (lit "max", .int high)]

/-- `_counts` on `health.get("accountCounts")`: the counts, the accounts that are in no class, and
whether the counts are valid. -/
def capacityCounts : Json → Dict × ℤ × Bool
  | .obj raw =>
    let (counts, valid) := fillCounts (.obj raw) countKeys zeros
    if valid = false ∨ countAt counts "total" < classified counts then (counts, 0, false)
    else (counts, countAt counts "total" - classified counts, true)
  | _ => (zeros, 0, false)

/-- The freshness that stands for an invalid one. -/
def noFreshness : Dict := [(lit "state", .str (lit "unknown")), (lit "ageSeconds", .int 0)]

/-- `("fresh", "stale", "unknown")` -/
def freshnessStates : List Str := [lit "fresh", lit "stale", lit "unknown"]

/-- `_freshness` on `health.get("freshness")`: the freshness and whether it is valid. -/
def freshness : Json → Dict × Bool
  | .obj raw =>
    let state := get raw (lit "state")
    let age := get raw (lit "ageSeconds")
    if state ∈ freshnessStates.map Json.str ∧ (countOf age).isSome then
      ([(lit "state", state), (lit "ageSeconds", age)], true)
    else (noFreshness, false)
  | _ => (noFreshness, false)

/-- `isinstance(value, int) and PROTOCOL_MIN <= value <= PROTOCOL_MAX`, for a value that is no
`bool`. -/
def protocolSupported : Json → Bool
  | .int n => protocolMin ≤ n && n ≤ protocolMax
  | _ => false

/-- The chain of branches of `classify_capacity`: a state and a reason. -/
def verdict (health : Dict) (gateway : GatewayProbe) (low high : ℤ) : Str × Str :=
  let (counts, unobserved, countsValid) := capacityCounts (get health (lit "accountCounts"))
  let (fresh, freshValid) := freshness (get health (lit "freshness"))
  if py.str (pyOrs [get health (lit "schema"), .str (lit "unknown")]) ≠ healthSchema then
    (lit "incompatible_producer", lit "health_schema_mismatch")
  else if protocolSupported (get health (lit "protocolVersion")) = false then
    (lit "incompatible_producer", lit "health_protocol_mismatch")
  else if max protocolMin low > min protocolMax high then
    (lit "incompatible_producer", lit "protocol_range_mismatch")
  else if gateway.status ≠ lit "healthy" ∨ gateway.detail ≠ lit "ok" then
    (lit "probe_failure", (probeReasons.lookup gateway.detail).getD (lit "gateway_probe_invalid"))
  else if get fresh (lit "state") = .str (lit "stale") then
    (lit "stale_contract", lit "stale_health_observation")
  else if freshValid = false ∨ get fresh (lit "state") = .str (lit "unknown") then
    (lit "unknown_observation", lit "missing_health_observation")
  else if countsValid = false then (lit "unknown_observation", lit "invalid_account_counts")
  else if countAt counts "available" > 0 then
    (lit "healthy_capacity", lit "available_accounts_observed")
  else if unobserved > 0 then (lit "unknown_observation", lit "unobserved_accounts")
  else (lit "exhausted_capacity", lit "no_available_accounts")

/-- `checked_at`: that of the document if it has one. -/
def checkedAt (health : Dict) (now : ℚ) : Str :=
  match get health (lit "checkedAt") with
  | .str s => if strip s = [] then stamp py now else s
  | _ => stamp py now

/-- `gateway.status` if it is one of the known ones. -/
def knownStatus (status : Str) : Str :=
  if status ∈ [lit "healthy", lit "degraded", lit "unavailable", lit "unknown"] then status
  else lit "unknown"

/-- `classify_capacity` -/
def classifyCapacity (health : Dict) (gateway : GatewayProbe) (low high : ℤ) (now : ℚ) :
    Except PyError Dict := do
  let consumer ← protocolRange low high
  let (counts, unobserved, _) := capacityCounts (get health (lit "accountCounts"))
  let (state, reason) := verdict py health gateway low high
  return [(lit "schema", .str (lit "cloudx.capacity.v1")), (lit "state", .str state),
    (lit "reason", .str reason),
    (lit "producer", .obj [(lit "cloudxVersion", .str version),
      (lit "protocol", .obj [(lit "min", .int protocolMin), (lit "max", .int protocolMax)]),
      (lit "healthSchema",
        .str (py.str (pyOrs [get health (lit "schema"), .str (lit "unknown")])))]),
    (lit "consumerProtocol", .obj consumer),
    (lit "gateway", .obj [(lit "status", .str (knownStatus gateway.status)),
      (lit "probe", .str (if gateway.detail = lit "ok" ∨ (probeReasons.lookup gateway.detail).isSome
        then gateway.detail else lit "invalid")),
      (lit "httpStatus", (gateway.httpStatus.map Json.int).getD .null)]),
    (lit "accountCounts", .obj counts), (lit "unobservedAccounts", .int unobserved),
    (lit "checkedAt", .str (checkedAt py health now)),
    (lit "freshness", .obj (freshness (get health (lit "freshness"))).1)]

/-- `build_capacity` -/
def buildCapacity (s : Surroundings) (low high : ℤ) : Except PyError Dict := do
  let (health, gateway) ← observeHealth py s
  classifyCapacity py health gateway low high s.checked

/-! ### The verdict on a document of the producer -/

/-- A gateway probe that was healthy and ok. -/
def Ok (gateway : GatewayProbe) : Prop :=
  gateway.status = lit "healthy" ∧ gateway.detail = lit "ok"

/-- A consumer range that is valid and meets that of the producer. -/
def Compatible (low high : ℤ) : Prop := low = 1 ∧ 1 ≤ high

theorem protocolRange_ok {low high : ℤ} :
    (∃ d, protocolRange low high = .ok d) ↔ 1 ≤ low ∧ low ≤ high := by
  unfold protocolRange
  split_ifs with h
  · constructor
    · rintro ⟨d, hd⟩; cases hd
    · intro hr; omega
  · constructor
    · intro _; omega
    · intro _; exact ⟨_, rfl⟩

theorem capacityCounts_counts (t a l u : ℕ) : capacityCounts (.obj (countsOf t a l u)) =
    if t < a + l + u then (countsOf t a l u, 0, false)
    else (countsOf t a l u, (t : ℤ) - (a + l + u), true) := by
  have hfill : fillCounts (.obj (countsOf t a l u)) countKeys zeros = (countsOf t a l u, true) :=
    (fillCounts_valid _ _).mpr ⟨t, a, l, u, rfl, rfl, rfl, rfl, rfl⟩
  have hlt : (true = false ∨ countAt (countsOf t a l u) "total" < classified (countsOf t a l u)) ↔
      t < a + l + u := by
    rw [countAt_total, classified_counts, or_iff_right (by simp)]
    omega
  unfold capacityCounts
  simp only [hfill]
  by_cases h : t < a + l + u
  · rw [if_pos (hlt.mpr h), if_pos h]
  · rw [if_neg (mt hlt.mp h), if_neg h]
    rfl

theorem freshness_of {state : Str} (hstate : state ∈ freshnessStates) {age : ℤ} (hage : 0 ≤ age) :
    freshness (.obj [(lit "state", .str state), (lit "ageSeconds", .int age)]) =
      ([(lit "state", .str state), (lit "ageSeconds", .int age)], true) := by
  have hcount : (countOf (.int age)).isSome = true := by rw [countOf, if_pos hage]; rfl
  exact if_pos ⟨List.mem_map_of_mem hstate, hcount⟩

section

variable {gateway : GatewayProbe} {imports text state : Str} {counts : Dict} {age low high : ℤ}

theorem get_healthDocument :
    let document := healthDocument gateway.status imports counts text state age
    get document (lit "schema") = .str healthSchema ∧
    get document (lit "protocolVersion") = .int protocolMax ∧
    get document (lit "accountCounts") = .obj counts ∧
    get document (lit "freshness") =
      .obj [(lit "state", .str state), (lit "ageSeconds", .int age)] := ⟨rfl, rfl, rfl, rfl⟩

/-- The branches that the producer's own document can take. -/
theorem verdict_document (hstate : state ∈ freshnessStates) (hage : 0 ≤ age) :
    (verdict py (healthDocument gateway.status imports counts text state age) gateway low high).1 =
      if max protocolMin low > min protocolMax high then lit "incompatible_producer"
      else if gateway.status ≠ lit "healthy" ∨ gateway.detail ≠ lit "ok" then lit "probe_failure"
      else if state = lit "stale" then lit "stale_contract"
      else if state = lit "unknown" then lit "unknown_observation"
      else if (capacityCounts (.obj counts)).2.2 = false then lit "unknown_observation"
      else if countAt (capacityCounts (.obj counts)).1 "available" > 0 then lit "healthy_capacity"
      else if (capacityCounts (.obj counts)).2.1 > 0 then lit "unknown_observation"
      else lit "exhausted_capacity" := by
  obtain ⟨hschema, hprotocol, hcounts, hfresh⟩ :=
    @get_healthDocument gateway imports text state counts age
  have hname : py.str (pyOrs [.str healthSchema, .str (lit "unknown")]) = healthSchema := rfl
  have hsupported : protocolSupported (.int protocolMax) = true := rfl
  have hget : get [(lit "state", Json.str state), (lit "ageSeconds", .int age)] (lit "state") =
    .str state := rfl
  unfold verdict
  rw [hschema, hprotocol, hcounts, hfresh, freshness_of hstate hage, hname, hsupported]
  simp only [hget, ne_eq, not_true_eq_false, if_false, Bool.true_eq_false, false_or,
    Json.str.injEq]
  split_ifs <;> rfl

end

/-! ### What a verdict rests on -/

/-- The counts of the state file describe this pool, the gateway answered, and the counts were
observed before the check and at most 900 whole seconds before it. -/
def Supports (s : Surroundings) (pool : ℕ → ℕ → ℕ → ℕ → Prop) : Prop :=
  Ok (probeGateway s.outcome) ∧ ∃ total available limited unavailable observed,
    Holds py s.accounts total available limited unavailable observed ∧
    available + limited + unavailable ≤ total ∧ pool total available limited unavailable ∧
    ⌊s.now - observed⌋ ≤ 900 ∧ observed ≤ s.now

/-- The verdict says healthy only of a pool with an available account, and exhausted only of a pool
whose accounts are all limited or unavailable. -/
def FailClosed (s : Surroundings) (low high : ℤ) : Prop :=
  ∀ document, buildCapacity py s low high = .ok document →
    (get document (lit "state") = .str (lit "healthy_capacity") →
      Supports py s fun _ available _ _ => 0 < available) ∧
    (get document (lit "state") = .str (lit "exhausted_capacity") →
      Supports py s fun total available limited unavailable =>
        available = 0 ∧ limited + unavailable = total)

/-- The gateway answers a consumer with a matching range, the counts of the file make the pool
healthy or exhausted, and they are dated after the clock. -/
def Postdated (s : Surroundings) (low high : ℤ) : Prop :=
  Ok (probeGateway s.outcome) ∧ Compatible low high ∧
    ∃ total available limited unavailable observed,
      Holds py s.accounts total available limited unavailable observed ∧
      available + limited + unavailable ≤ total ∧
      (0 < available ∨ limited + unavailable = total) ∧ s.now < observed

theorem ageAt_nonneg (now observed : ℚ) : 0 ≤ ageAt now observed := le_max_left _ _

theorem accountCounts_state {now : ℚ} {accounts : AccountState} {counts : Dict} {state : Str}
    {age : ℤ} (h : accountCounts py now accounts = .ok (counts, state, age)) :
    state ∈ freshnessStates ∧ 0 ≤ age := by
  rcases accountCounts_cases py h with ⟨t, a, l, u, observed, -, -, rfl, rfl⟩ | ⟨rfl, rfl⟩
  · refine ⟨?_, ageAt_nonneg _ _⟩
    split_ifs
    · exact List.mem_cons_self
    · exact List.mem_cons_of_mem _ List.mem_cons_self
  · exact ⟨List.mem_cons_of_mem _ (List.mem_cons_of_mem _ List.mem_cons_self), le_rfl⟩

theorem buildCapacity_of_counts {s : Surroundings} {low high : ℤ} {counts : Dict} {state : Str}
    {age : ℤ} (h : accountCounts py s.now s.accounts = .ok (counts, state, age)) :
    buildCapacity py s low high = classifyCapacity py (documentOf py s counts state age)
      (probeGateway s.outcome) low high s.checked := by
  unfold buildCapacity
  rw [observeHealth_of_counts py h]
  rfl

/-- The verdict that a capacity document carries. -/
theorem buildCapacity_state {s : Surroundings} {low high : ℤ} {document : Dict}
    (h : buildCapacity py s low high = .ok document) : ∃ counts state age,
    accountCounts py s.now s.accounts = .ok (counts, state, age) ∧ 1 ≤ low ∧ low ≤ high ∧
    get document (lit "state") = .str (verdict py (documentOf py s counts state age)
      (probeGateway s.outcome) low high).1 := by
  rcases hc : accountCounts py s.now s.accounts with e | ⟨counts, state, age⟩
  · unfold buildCapacity at h
    rw [observeHealth_of_error py hc] at h
    cases h
  · rw [buildCapacity_of_counts py hc] at h
    unfold classifyCapacity at h
    rcases hr : protocolRange low high with e | consumer
    · rw [hr] at h; cases h
    rw [hr] at h
    obtain ⟨h1, h2⟩ := protocolRange_ok.mp ⟨consumer, hr⟩
    refine ⟨counts, state, age, rfl, h1, h2, ?_⟩
    cases h
    rfl

theorem buildCapacity_returns {s : Surroundings} {low high : ℤ} {counts : Dict} {state : Str}
    {age : ℤ} (hc : accountCounts py s.now s.accounts = .ok (counts, state, age)) (hlow : 1 ≤ low)
    (hhigh : low ≤ high) : ∃ document, buildCapacity py s low high = .ok document := by
  obtain ⟨consumer, hr⟩ := protocolRange_ok.mpr ⟨hlow, hhigh⟩
  rw [buildCapacity_of_counts py hc]
  unfold classifyCapacity
  rw [hr]
  exact ⟨_, rfl⟩

/-- What makes the verdict on counts that hold healthy or exhausted. -/
structure Usable (s : Surroundings) (low high : ℤ) (t a l u : ℕ) (observed : ℚ) : Prop where
  gateway : Ok (probeGateway s.outcome)
  compatible : Compatible low high
  sums : a + l + u ≤ t
  recent : s.now - observed < 901

/-- The document that these counts lead to. -/
def countsDocument (s : Surroundings) (t a l u : ℕ) (observed : ℚ) : Dict :=
  documentOf py s (countsOf t a l u)
    (if ageAt s.now observed ≤ 900 then lit "fresh" else lit "stale") (ageAt s.now observed)

theorem verdict_countsDocument {s : Surroundings} {low high : ℤ} {t a l u : ℕ} {observed : ℚ}
    (hlow : 1 ≤ low) (hhigh : low ≤ high) :
    let state := (verdict py (countsDocument py s t a l u observed) (probeGateway s.outcome)
      low high).1
    (state = lit "healthy_capacity" ↔ Usable s low high t a l u observed ∧ 0 < a) ∧
    (state = lit "exhausted_capacity" ↔
      Usable s low high t a l u observed ∧ a = 0 ∧ l + u = t) := by
  have hmem : (if ageAt s.now observed ≤ 900 then lit "fresh" else lit "stale") ∈
      freshnessStates := by
    split_ifs
    · exact List.mem_cons_self
    · exact List.mem_cons_of_mem _ List.mem_cons_self
  have hcompatible : Compatible low high ↔ ¬ max protocolMin low > min protocolMax high := by
    unfold Compatible protocolMin protocolMax
    omega
  have hok : Ok (probeGateway s.outcome) ↔ ¬((probeGateway s.outcome).status ≠ lit "healthy" ∨
      (probeGateway s.outcome).detail ≠ lit "ok") := by
    unfold Ok
    tauto
  have husable : Usable s low high t a l u observed ↔
      ¬ max protocolMin low > min protocolMax high ∧
      ¬((probeGateway s.outcome).status ≠ lit "healthy" ∨
        (probeGateway s.outcome).detail ≠ lit "ok") ∧
      a + l + u ≤ t ∧ ageAt s.now observed ≤ 900 := by
    rw [← hcompatible, ← hok, ageAt_fresh]
    exact ⟨fun h => ⟨h.2, h.1, h.3, h.4⟩, fun h => ⟨h.2.1, h.1, h.2.2.1, h.2.2.2⟩⟩
  intro state
  have hstate : state = _ := verdict_document py hmem (ageAt_nonneg s.now observed)
  rw [husable, hstate, capacityCounts_counts]
  clear hstate state husable hok hcompatible hmem
  by_cases hrange : max protocolMin low > min protocolMax high
  · rw [if_pos hrange]
    exact ⟨iff_of_false (by decide) fun h => h.1.1 hrange,
      iff_of_false (by decide) fun h => h.1.1 hrange⟩
  by_cases hgate : (probeGateway s.outcome).status ≠ lit "healthy" ∨
      (probeGateway s.outcome).detail ≠ lit "ok"
  · rw [if_neg hrange, if_pos hgate]
    exact ⟨iff_of_false (by decide) fun h => h.1.2.1 hgate,
      iff_of_false (by decide) fun h => h.1.2.1 hgate⟩
  by_cases hage : ageAt s.now observed ≤ 900
  swap
  · rw [if_neg hrange, if_neg hgate, if_neg hage, if_pos rfl]
    exact ⟨iff_of_false (by decide) fun h => hage h.1.2.2.2,
      iff_of_false (by decide) fun h => hage h.1.2.2.2⟩
  rw [if_neg hrange, if_neg hgate, if_pos hage, if_neg (by decide), if_neg (by decide)]
  by_cases hsum : t < a + l + u
  · rw [if_pos hsum, if_pos rfl]
    exact ⟨iff_of_false (by decide) fun h => absurd h.1.2.2.1 (by omega),
      iff_of_false (by decide) fun h => absurd h.1.2.2.1 (by omega)⟩
  have havail : countAt (countsOf t a l u) "available" = a := rfl
  rw [if_neg hsum, if_neg (by simp), havail]
  dsimp only
  split_ifs with ha hleft
  · exact ⟨iff_of_true rfl ⟨⟨hrange, hgate, by omega, hage⟩, by omega⟩,
      iff_of_false (by decide) fun h => absurd h.2.1 (by omega)⟩
  · exact ⟨iff_of_false (by decide) fun h => absurd h.2 (by omega),
      iff_of_false (by decide) fun h => absurd h.2.2 (by omega)⟩
  · exact ⟨iff_of_false (by decide) fun h => absurd h.2 (by omega),
      iff_of_true rfl ⟨⟨hrange, hgate, by omega, hage⟩, by omega, by omega⟩⟩

/-- Counts whose state is unknown lead to neither verdict. -/
theorem verdict_unknown {s : Surroundings} {low high : ℤ} {counts : Dict} :
    let state := (verdict py (documentOf py s counts (lit "unknown") 0) (probeGateway s.outcome)
      low high).1
    state ≠ lit "healthy_capacity" ∧ state ≠ lit "exhausted_capacity" := by
  intro state
  have hstate : state = _ := verdict_document py
    (List.mem_cons_of_mem _ (List.mem_cons_of_mem _ List.mem_cons_self)) le_rfl
  rw [if_neg (show lit "unknown" ≠ lit "stale" by decide), if_pos rfl] at hstate
  rw [hstate]
  split_ifs <;> decide

/-- A document with one of the two verdicts comes from counts that hold. -/
theorem verdict_from_counts {s : Surroundings} {low high : ℤ} {document : Dict}
    (h : buildCapacity py s low high = .ok document) {state : Str}
    (hstate : get document (lit "state") = .str state)
    (hpool : state = lit "healthy_capacity" ∨ state = lit "exhausted_capacity") :
    ∃ t a l u observed, Holds py s.accounts t a l u observed ∧ 1 ≤ low ∧ low ≤ high ∧
      (verdict py (countsDocument py s t a l u observed) (probeGateway s.outcome) low high).1 =
        state := by
  obtain ⟨counts, fresh, age, hc, h1, h2, hget⟩ := buildCapacity_state py h
  have heq := Json.str.inj (hget.symm.trans hstate)
  rcases accountCounts_cases py hc with ⟨t, a, l, u, observed, hh, rfl, rfl, rfl⟩ | ⟨rfl, rfl⟩
  · exact ⟨t, a, l, u, observed, hh, h1, h2, heq⟩
  · obtain ⟨hne, hne'⟩ := @verdict_unknown py s low high counts
    rcases hpool with rfl | rfl
    · exact absurd heq hne
    · exact absurd heq hne'

/-- What a usable pool supports, if its counts are not dated after the clock. -/
theorem supports_of_usable {s : Surroundings} {low high : ℤ} {t a l u : ℕ} {observed : ℚ}
    {pool : ℕ → ℕ → ℕ → ℕ → Prop} (hh : Holds py s.accounts t a l u observed)
    (husable : Usable s low high t a l u observed) (hp : pool t a l u)
    (hle : observed ≤ s.now) : Supports py s pool := by
  refine ⟨husable.gateway, t, a, l, u, observed, hh, husable.sums, hp, ?_, hle⟩
  have h := husable.recent
  rw [← Int.lt_add_one_iff, Int.floor_lt]
  push_cast
  linarith

theorem holds_unique {accounts : AccountState} {t a l u t' a' l' u' : ℕ} {observed observed' : ℚ}
    (h : Holds py accounts t a l u observed) (h' : Holds py accounts t' a' l' u' observed') :
    observed = observed' := by
  obtain ⟨raw, mtime, data, rfl, hl, -, -, -, -, ht⟩ := h
  obtain ⟨_, _, data', he, hl', -, -, -, -, ht'⟩ := h'
  cases he
  have hd : data = data' := Json.obj.inj (Loaded.value.inj (hl.symm.trans hl'))
  subst hd
  split_ifs at ht ht'
  · exact Option.some.inj (ht.1.symm.trans ht'.1)
  · exact Option.some.inj (ht.symm.trans ht')

/-- Counts dated after the clock make a verdict that nothing supports. -/
theorem not_failClosed {s : Surroundings} {low high : ℤ} (h : Postdated py s low high) :
    ¬ FailClosed py s low high := by
  obtain ⟨hok, hc, t, a, l, u, observed, hh, hsum, hpool, hlate⟩ := h
  intro hclosed
  have h1 : 1 ≤ low := hc.1.ge
  have h2 : low ≤ high := by rw [hc.1]; exact hc.2
  have hcounts := @accountCounts_of_holds py s.now _ _ _ _ _ _ hh
  obtain ⟨document, hdoc⟩ := buildCapacity_returns py hcounts h1 h2
  obtain ⟨counts, state, age, hcounts', -, -, hget⟩ := buildCapacity_state py hdoc
  cases hcounts.symm.trans hcounts'
  have husable : Usable s low high t a l u observed := ⟨hok, hc, hsum, by linarith⟩
  obtain ⟨hhealthy, hexhausted⟩ := @verdict_countsDocument py s low high t a l u observed h1 h2
  have hsupports : ∀ {pool}, ¬ Supports py s pool := by
    rintro pool ⟨-, _, _, _, _, observed', hh', -, -, -, hle⟩
    rw [holds_unique py hh hh'] at hlate
    exact absurd hle (not_le.mpr hlate)
  by_cases ha : 0 < a
  · exact hsupports ((hclosed document hdoc).1
      (hget.trans (congrArg Json.str (hhealthy.mpr ⟨husable, ha⟩))))
  · have hrest : l + u = t := hpool.resolve_left ha
    exact hsupports ((hclosed document hdoc).2
      (hget.trans (congrArg Json.str (hexhausted.mpr ⟨husable, by omega, hrest⟩))))

/-- **When capacity is reported fail-closed**: unless the verdict rests on counts that are dated after
the clock. -/
theorem failClosed_iff (s : Surroundings) (low high : ℤ) :
    FailClosed py s low high ↔ ¬ Postdated py s low high := by
  constructor
  · intro h hp
    exact not_failClosed py hp h
  · intro hp document hdoc
    have hearly : ∀ {t a l u : ℕ} {observed : ℚ}, Holds py s.accounts t a l u observed →
        Usable s low high t a l u observed → (0 < a ∨ l + u = t) → observed ≤ s.now := by
      intro t a l u observed hh husable hpool
      by_contra hlate
      exact hp ⟨husable.gateway, husable.compatible, t, a, l, u, observed, hh, husable.sums, hpool,
        not_le.mp hlate⟩
    constructor
    · intro hstate
      obtain ⟨t, a, l, u, observed, hh, h1, h2, hv⟩ :=
        verdict_from_counts py hdoc hstate (.inl rfl)
      obtain ⟨husable, ha⟩ := (verdict_countsDocument py h1 h2).1.mp hv
      exact supports_of_usable py hh husable ha (hearly hh husable (.inl ha))
    · intro hstate
      obtain ⟨t, a, l, u, observed, hh, h1, h2, hv⟩ :=
        verdict_from_counts py hdoc hstate (.inr rfl)
      obtain ⟨husable, hpool⟩ := (verdict_countsDocument py h1 h2).2.mp hv
      exact supports_of_usable py hh husable hpool (hearly hh husable (.inr hpool.2))

/-! ### A file from the future -/

/-- A pool of one available account. -/
def oneAvailable : Json := .obj (countsOf 1 1 0 0)

/-- Its state file, in the shape without a schema. -/
def oneRaw : Bytes := utf8 (dumps onePy true oneAvailable)

/-- An interpreter that reads that file. -/
def poolPy : Py := tablePy [] [(oneRaw, oneAvailable)] []

/-- The file is an hour younger than the clock, and the gateway answers. -/
def postdatedSample : Surroundings where
  outcome := .response 200
  accounts := .file oneRaw (some 3600)
  lock := .free
  now := 0
  checked := 0

/-- **A state file from the future keeps its pool healthy.** -/
theorem postdated_not_closed : ¬ FailClosed poolPy postdatedSample 1 1 := by
  refine not_failClosed poolPy ⟨⟨rfl, rfl⟩, ⟨rfl, le_rfl⟩, 1, 1, 0, 0, 3600, ?_, by decide,
    .inl one_pos, by norm_num [postdatedSample]⟩
  refine ⟨oneRaw, some 3600, countsOf 1 1 0 0, rfl, by decide +kernel, rfl, rfl, rfl, rfl, ?_⟩
  rw [if_neg (by decide)]

end Cloudx.Cloud.Capacity
