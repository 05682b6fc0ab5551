import Cloudx.Python.Clock
import Cloudx.Shared.Receipt
import Mathlib.Algebra.Order.Floor.Ring
import Mathlib.Data.Rat.Floor

/-! # The health document of the cloud

`health.py` and the gateway probe of `gateway.py`. The counts of the account-state file are filled
in one by one, and whatever was filled stays when a later check fails: the function then reports the
state `unknown` with the counts it has. The age of an observation is never negative, so a time later
than the clock counts as now. -/

namespace Cloudx.Cloud.Health

open Cloudx.Python.Text Cloudx.Python.Value
open Cloudx.Python.Clock (stamp)
open Cloudx.Shared.Receipt (time)

variable (py : Py)

/-! ### Counts -/

/-- `isinstance(value, int) and not isinstance(value, bool) and value >= 0` -/
def countOf : Json → Option ℕ
  | .int n => if 0 ≤ n then some n.toNat else none
  | _ => none

/-- `COUNT_KEYS`, the keys of `counts` in their order -/
def countKeys : List Str := [lit "total", lit "available", lit "limited", lit "unavailable"]

/-- The four counts as a dict. -/
def countsOf (total available limited unavailable : ℕ) : Dict :=
  [(lit "total", .int total), (lit "available", .int available), (lit "limited", .int limited),
    (lit "unavailable", .int unavailable)]

/-- `raw.get(key) if isinstance(raw, dict) else None` -/
def member (raw : Json) (key : Str) : Json := get (asDict raw) key

/-- The loop over the keys: the counts as far as they were filled, and whether all are valid. -/
def fillCounts (raw : Json) : List Str → Dict → Dict × Bool
  | [], counts => (counts, true)
  | key :: keys, counts =>
    match countOf (member raw key) with
    | none => (counts, false)
    | some n => fillCounts raw keys (set counts key (.int n))

/-! ### The age of an observation -/

/-- `int(x)` -/
def truncate (x : ℚ) : ℤ := if 0 ≤ x then ⌊x⌋ else ⌈x⌉

/-- `max(0, int(now - observed))` -/
def ageAt (now observed : ℚ) : ℤ := max 0 (truncate (now - observed))

/-- `_observed_age`; `none` for `ValueError`. -/
def observedAge (now : ℚ) (value : Json) : Option ℤ := (time py value).map (ageAt now)

/-! ### The account state -/

/-- What is at `account_state_path`: no file, a file that cannot be read, or its bytes with its
modification time (`none` if `stat` fails by then). -/
inductive AccountState where
  | absent
  | unreadable
  | file (raw : Bytes) (mtime : Option ℚ)

/-- `"cloudx.account-state.v1"` -/
def accountStateSchema : Str := lit "cloudx.account-state.v1"

/-- `data.get("accountCounts", data)` -/
def rawCounts (data : Dict) : Json := (data.lookup (lit "accountCounts")).getD (.obj data)

/-- `counts[key]` as a number. -/
def countAt (counts : Dict) (key : String) : ℤ :=
  match get counts (lit key) with
  | .int n => n
  | _ => 0

/-- `available + limited + unavailable` -/
def classified (counts : Dict) : ℤ :=
  countAt counts "available" + countAt counts "limited" + countAt counts "unavailable"

/-- The age of the counts, after the checks of their schema; `none` for an exception. -/
def stateAge (now : ℚ) (data counts : Dict) (mtime : Option ℚ) : Option ℤ :=
  if get data (lit "schema") = .str accountStateSchema then
    match countOf (get data (lit "unobservedAccounts")) with
    | none => none
    | some unobserved =>
      if countAt counts "total" ≠ classified counts + unobserved then none
      else observedAge py now (get data (lit "observedAt"))
  else mtime.map (ageAt now)

/-- `except (OSError, ValueError, TypeError)` -/
def caught : PyError → Bool
  | .os | .value | .unicodeEncode | .unhashable => true
  | _ => false

/-- The counts before any of them is read. -/
def zeros : Dict := countsOf 0 0 0 0

/-- `_account_counts`: the counts, the state of their freshness and their age. -/
def accountCounts (now : ℚ) : AccountState → Except PyError (Dict × Str × ℤ)
  | .absent => .ok (zeros, lit "unknown", 0)
  | .unreadable => .ok (zeros, lit "unknown", 0)
  | .file raw mtime =>
    match py.loads raw with
    | .raised e => if caught e then .ok (zeros, lit "unknown", 0) else .error e
    | .value (.obj data) =>
      let (counts, valid) := fillCounts (rawCounts data) countKeys zeros
      match if valid then stateAge py now data counts mtime else none with
      | none => .ok (counts, lit "unknown", 0)
      | some age => .ok (counts, if age ≤ 900 then lit "fresh" else lit "stale", age)
    | _ => .ok (zeros, lit "unknown", 0)

/-! ### The gateway -/

/-- `GatewayProbe` -/
structure GatewayProbe where
  status : Str
  httpStatus : Option ℤ
  detail : Str

/-- What happens to the request of a probe. -/
inductive ProbeOutcome where
  | credentialInvalid
  | network
  | response (code : ℤ)

/-- `probe_gateway` -/
def probeGateway : ProbeOutcome → GatewayProbe
  | .credentialInvalid => ⟨lit "degraded", none, lit "credential_invalid"⟩
  | .network => ⟨lit "unavailable", none, lit "network"⟩
  | .response code =>
    if 200 ≤ code ∧ code < 300 then ⟨lit "healthy", some code, lit "ok"⟩
    else if code = 401 ∨ code = 403 then ⟨lit "degraded", some code, lit "authentication"⟩
    else if 400 ≤ code ∧ code < 500 then ⟨lit "degraded", some code, lit "client_response"⟩
    else ⟨lit "unavailable", some code, lit "server_response"⟩

/-! ### The document -/

/-- The lock of the import when it is tried. -/
inductive ImportLock where
  | missing
  | free
  | held
  | failing

/-- `_import_status` -/
def importStatus : ImportLock → Str
  | .missing => lit "ready"
  | .free => lit "ready"
  | .held => lit "busy"
  | .failing => lit "unavailable"

/-- `VERSION` -/
def version : Str := lit "0.1.33"

/-- `PROTOCOL_MIN` -/
def protocolMin : ℤ := 1

/-- `PROTOCOL_MAX` -/
def protocolMax : ℤ := 1

/-- `"cloudx.health.v1"` -/
def healthSchema : Str := lit "cloudx.health.v1"

/-- What `observe_health` meets: the probe, the account state, the import lock and the two clock
readings, for the age of the counts and for the date of the document. -/
structure Surroundings where
  outcome : ProbeOutcome
  accounts : AccountState
  lock : ImportLock
  now : ℚ
  checked : ℚ

/-- The document of `observe_health`. -/
def healthDocument (gateway imports : Str) (counts : Dict) (checkedAt state : Str) (age : ℤ) :
    Dict :=
  [(lit "schema", .str healthSchema), (lit "cloudxVersion", .str version),
    (lit "protocolVersion", .int protocolMax), (lit "gatewayStatus", .str gateway),
    (lit "importStatus", .str imports), (lit "accountCounts", .obj counts),
    (lit "checkedAt", .str checkedAt),
    (lit "freshness", .obj [(lit "state", .str state), (lit "ageSeconds", .int age)])]

/-- `observe_health` -/
def observeHealth (s : Surroundings) : Except PyError (Dict × GatewayProbe) := do
  let gateway := probeGateway s.outcome
  let (counts, state, age) ← accountCounts py s.now s.accounts
  return (healthDocument gateway.status (importStatus s.lock) counts (stamp py s.checked) state age,
    gateway)

/-! ### What the loop fills -/

theorem countOf_some {v : Json} {n : ℕ} : countOf v = some n ↔ v = .int n := by
  unfold countOf
  cases v with
  | int m =>
    by_cases h : 0 ≤ m
    · simp only [if_pos h, Option.some.injEq, Json.int.injEq]
      constructor
      · intro hm; omega
      · intro hm; omega
    · simp only [if_neg h, Json.int.injEq]
      constructor
      · intro hm; exact absurd hm (by simp)
      · intro hm; omega
  | _ => simp

/-- The loop ends well when every count is valid. -/
theorem fillCounts_valid (raw : Json) (counts : Dict) :
    fillCounts raw countKeys zeros = (counts, true) ↔ ∃ total available limited unavailable : ℕ,
      member raw (lit "total") = .int total ∧ member raw (lit "available") = .int available ∧
      member raw (lit "limited") = .int limited ∧
      member raw (lit "unavailable") = .int unavailable ∧
      counts = countsOf total available limited unavailable := by
  simp only [← countOf_some]
  unfold countKeys
  simp only [fillCounts]
  rcases countOf (member raw (lit "total")) with _ | t
  · simp
  rcases countOf (member raw (lit "available")) with _ | a
  · simp
  rcases countOf (member raw (lit "limited")) with _ | l
  · simp
  rcases countOf (member raw (lit "unavailable")) with _ | u
  · simp
  simp only [Option.some.injEq, Prod.mk.injEq, and_true]
  constructor
  · intro h
    exact ⟨t, a, l, u, rfl, rfl, rfl, rfl, h.symm⟩
  · rintro ⟨_, _, _, _, rfl, rfl, rfl, rfl, h⟩
    exact h.symm

/-- Otherwise it stops at a count that is not valid. -/
theorem fillCounts_invalid (raw : Json) {counts : Dict}
    (h : fillCounts raw countKeys zeros = (counts, false)) :
    ∃ key ∈ countKeys, countOf (member raw key) = none := by
  have hstop : ∀ (keys : List Str) (d : Dict), fillCounts raw keys d = (counts, false) →
      ∃ key ∈ keys, countOf (member raw key) = none := by
    intro keys
    induction keys with
    | nil => intro d hd; exact absurd (Prod.mk.inj hd).2 (by simp)
    | cons key keys ih =>
      intro d hd
      rcases hk : countOf (member raw key) with _ | n
      · exact ⟨key, List.mem_cons_self, hk⟩
      · rw [fillCounts, hk] at hd
        obtain ⟨k, hmem, hnone⟩ := ih _ hd
        exact ⟨k, List.mem_cons_of_mem _ hmem, hnone⟩
  exact hstop countKeys zeros h

@[simp] theorem countAt_total (t a l u : ℕ) : countAt (countsOf t a l u) "total" = t := rfl

@[simp] theorem classified_counts (t a l u : ℕ) : classified (countsOf t a l u) = a + l + u := rfl

/-! ### What a state file says -/

/-- The account-state file passes the checks of `_account_counts` with these counts, observed at
`observed`. -/
def Holds (accounts : AccountState) (total available limited unavailable : ℕ) (observed : ℚ) :
    Prop :=
  ∃ raw mtime data, accounts = .file raw mtime ∧ py.loads raw = .value (.obj data) ∧
    member (rawCounts data) (lit "total") = .int total ∧
    member (rawCounts data) (lit "available") = .int available ∧
    member (rawCounts data) (lit "limited") = .int limited ∧
    member (rawCounts data) (lit "unavailable") = .int unavailable ∧
    if get data (lit "schema") = .str accountStateSchema then
      time py (get data (lit "observedAt")) = some observed ∧
        ∃ unobserved : ℕ, get data (lit "unobservedAccounts") = .int unobserved ∧
          total = available + limited + unavailable + unobserved
    else mtime = some observed

theorem stateAge_some {now : ℚ} {data : Dict} {t a l u : ℕ} {mtime : Option ℚ} {age : ℤ} :
    stateAge py now data (countsOf t a l u) mtime = some age ↔ ∃ observed,
      age = ageAt now observed ∧
      if get data (lit "schema") = .str accountStateSchema then
        time py (get data (lit "observedAt")) = some observed ∧
          ∃ unobserved : ℕ, get data (lit "unobservedAccounts") = .int unobserved ∧
            t = a + l + u + unobserved
      else mtime = some observed := by
  unfold stateAge
  split_ifs with hs
  · simp only [← countOf_some]
    rcases countOf (get data (lit "unobservedAccounts")) with _ | n
    · simp
    · have hsum : countAt (countsOf t a l u) "total" ≠ classified (countsOf t a l u) + n ↔
          t ≠ a + l + u + n := by
        rw [countAt_total, classified_counts]
        omega
      by_cases hadd : t ≠ a + l + u + n
      · simp only [if_pos (hsum.mpr hadd), Option.some.injEq]
        constructor
        · intro h; exact absurd h (by simp)
        · rintro ⟨_, _, _, _, rfl, h⟩; exact absurd h hadd
      · simp only [if_neg (mt hsum.mp hadd), observedAge, Option.map_eq_some_iff,
          Option.some.injEq]
        constructor
        · rintro ⟨observed, ht, rfl⟩
          exact ⟨observed, rfl, ht, n, rfl, not_not.mp hadd⟩
        · rintro ⟨observed, rfl, ht, -⟩
          exact ⟨observed, ht, rfl⟩
  · rw [Option.map_eq_some_iff]
    constructor
    · rintro ⟨observed, ht, rfl⟩; exact ⟨observed, rfl, ht⟩
    · rintro ⟨observed, rfl, ht⟩; exact ⟨observed, ht, rfl⟩

/-- **A state file that passes its checks gives its counts and their age.** -/
theorem accountCounts_of_holds {now : ℚ} {accounts : AccountState} {t a l u : ℕ} {observed : ℚ}
    (h : Holds py accounts t a l u observed) :
    accountCounts py now accounts = .ok (countsOf t a l u,
      if ageAt now observed ≤ 900 then lit "fresh" else lit "stale", ageAt now observed) := by
  obtain ⟨raw, mtime, data, rfl, hl, ht, ha, hlim, hu, htime⟩ := h
  have hfill : fillCounts (rawCounts data) countKeys zeros = (countsOf t a l u, true) :=
    (fillCounts_valid _ _).mpr ⟨t, a, l, u, ht, ha, hlim, hu, rfl⟩
  have hage : stateAge py now data (countsOf t a l u) mtime = some (ageAt now observed) :=
    (stateAge_some py).mpr ⟨observed, rfl, htime⟩
  simp only [accountCounts, hl, hfill, if_true, hage]

/-- **Any other account state that does not raise is unknown.** -/
theorem accountCounts_cases {now : ℚ} {accounts : AccountState} {counts : Dict} {state : Str}
    {age : ℤ} (h : accountCounts py now accounts = .ok (counts, state, age)) :
    (∃ t a l u observed, Holds py accounts t a l u observed ∧ counts = countsOf t a l u ∧
      age = ageAt now observed ∧ state = if age ≤ 900 then lit "fresh" else lit "stale") ∨
    (state = lit "unknown" ∧ age = 0) := by
  rcases accounts with _ | _ | ⟨raw, mtime⟩
  · cases h; exact .inr ⟨rfl, rfl⟩
  · cases h; exact .inr ⟨rfl, rfl⟩
  · unfold accountCounts at h
    rcases hl : py.loads raw with v | _ | _ | e
    · rcases v with _ | _ | _ | _ | _ | _ | data
      case obj =>
        rcases hfill : fillCounts (rawCounts data) countKeys zeros with ⟨c, valid⟩
        simp only [hl, hfill] at h
        cases valid
        · simp only [Bool.false_eq_true, if_false] at h
          cases h; exact .inr ⟨rfl, rfl⟩
        · simp only [if_true] at h
          obtain ⟨t, a, l, u, ht, ha, hlim, hu, rfl⟩ := (fillCounts_valid _ _).mp hfill
          rcases hage : stateAge py now data (countsOf t a l u) mtime with _ | n
          · rw [hage] at h; cases h; exact .inr ⟨rfl, rfl⟩
          · rw [hage] at h
            obtain ⟨observed, rfl, htime⟩ := (stateAge_some py).mp hage
            cases h
            exact .inl ⟨t, a, l, u, observed,
              ⟨raw, mtime, data, rfl, hl, ht, ha, hlim, hu, htime⟩, rfl, rfl, rfl⟩
      all_goals simp only [hl] at h; cases h; exact .inr ⟨rfl, rfl⟩
    · simp only [hl] at h; cases h; exact .inr ⟨rfl, rfl⟩
    · simp only [hl] at h; cases h; exact .inr ⟨rfl, rfl⟩
    · simp only [hl] at h
      split_ifs at h
      cases h; exact .inr ⟨rfl, rfl⟩

/-- The document of `observe_health` for these counts. -/
def documentOf (s : Surroundings) (counts : Dict) (state : Str) (age : ℤ) : Dict :=
  healthDocument (probeGateway s.outcome).status (importStatus s.lock) counts (stamp py s.checked)
    state age

theorem observeHealth_of_counts {s : Surroundings} {counts : Dict} {state : Str} {age : ℤ}
    (h : accountCounts py s.now s.accounts = .ok (counts, state, age)) :
    observeHealth py s = .ok (documentOf py s counts state age, probeGateway s.outcome) := by
  unfold observeHealth
  rw [h]
  rfl

theorem observeHealth_of_error {s : Surroundings} {e : PyError}
    (h : accountCounts py s.now s.accounts = .error e) : observeHealth py s = .error e := by
  unfold observeHealth
  rw [h]
  rfl

/-! ### Ages -/

/-- An observation at most 900 whole seconds old, or later than the clock, is fresh. -/
theorem ageAt_fresh (now observed : ℚ) : ageAt now observed ≤ 900 ↔ now - observed < 901 := by
  unfold ageAt truncate
  split_ifs with h
  · rw [max_le_iff, and_iff_right (by norm_num), ← Int.lt_add_one_iff, Int.floor_lt]
    norm_num
  · rw [max_le_iff, and_iff_right (by norm_num), Int.ceil_le]
    constructor
    · intro _; linarith
    · intro _; push_cast; linarith

end Cloudx.Cloud.Health
