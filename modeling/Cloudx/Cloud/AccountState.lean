import Cloudx.Cloud.HealthBridge
import Cloudx.Cloud.LegacyHealth

/-! # From probe results to the account state

`summarize_probes` counts the results of a sweep by their status, and `account_state.py` turns that
summary into the document that the health observation reads. A result that is missing, or whose
status is none of the known ones, is one account that was not observed. -/

namespace Cloudx.Cloud.AccountState

open Cloudx.Python.Text Cloudx.Python.Value Cloudx.Python.Dump Cloudx.Python.Canonical
open Cloudx.Python.Clock (stamp)
open Cloudx.Lib.Checks
open Cloudx.Cloud.Health

variable (py : Py)

/-! ### The summary of the probes -/

/-- `str((item or {}).get("status") or "unavailable")` -/
def statusOf (item : Option Dict) : Str :=
  py.str (pyOr (get (item.getD []) (lit "status")) (.str (lit "unavailable")))

/-- `statuses[status]` -/
def statusCount (status : Str) (probes : List (Option Dict)) : ℕ :=
  probes.countP fun item => statusOf py item = status

/-- `str(item.get("unavailable_until"))` of a result that has one -/
def resetTime (item : Option Dict) : Option Str :=
  let value := get (item.getD []) (lit "unavailable_until")
  if truthy value then some (py.str value) else none

/-- An `int` that is no `bool`. -/
def intOf : Json → Option ℤ
  | .int n => some n
  | _ => none

/-- The least integer among the `remaining_percents` of a result. -/
def leastRemaining (item : Option Dict) : Option ℤ :=
  match get (item.getD []) (lit "remaining_percents") with
  | .arr values => (values.filterMap intOf).min?
  | _ => none

/-- `ready` or `warning` -/
def available (probes : List (Option Dict)) : ℕ :=
  statusCount py (lit "ready") probes + statusCount py (lit "warning") probes

/-- `limited` -/
def limited (probes : List (Option Dict)) : ℕ := statusCount py (lit "limited") probes

/-- `len(probes) - available - limited` -/
def failed (probes : List (Option Dict)) : ℕ :=
  probes.length - available py probes - limited py probes

/-- `state` of the summary. -/
def poolState (probes : List (Option Dict)) (warningAvailableAccounts : ℤ) : Str :=
  if probes = [] ∨ failed py probes = probes.length then lit "probe_error"
  else if available py probes = 0 ∧ 0 < limited py probes then lit "exhausted"
  else if (available py probes : ℤ) ≤ max 1 warningAvailableAccounts then lit "low_capacity"
  else lit "healthy"

/-- `summarize_probes` -/
def summarizeProbes (probes : List (Option Dict)) (warningAvailableAccounts : ℤ) (checkedAt : Str) :
    Dict :=
  let remaining := probes.filterMap leastRemaining
  let resetTimes := (probes.filterMap (resetTime py)).insertionSort (· ≤ ·)
  [(lit "state", .str (poolState py probes warningAvailableAccounts)),
    (lit "checked_at", .str checkedAt), (lit "total", .int probes.length),
    (lit "available", .int (available py probes)),
    (lit "ready", .int (statusCount py (lit "ready") probes)),
    (lit "warning", .int (statusCount py (lit "warning") probes)),
    (lit "limited", .int (limited py probes)),
    (lit "invalid", .int (statusCount py (lit "invalid") probes)),
    (lit "failed", .int (failed py probes)),
    (lit "zero_quota", .int (remaining.countP (· ≤ 0))),
    (lit "low_quota", .int (remaining.countP fun value => 0 < value ∧ value ≤ 10)),
    (lit "earliest_reset", .str (resetTimes.head?.getD []))]

/-! ### The account state -/

/-- `AccountStateRejected(message)` -/
def rejected (message : String) : PyError := .rejected message

/-- `_count` -/
def requireCount (document : Dict) (name : Str) : Except PyError ℕ :=
  match countOf (get document name) with
  | some n => .ok n
  | none => .error (rejected "credential health state contains invalid counts")

/-- `_timestamp` -/
def timestamp : Json → Except PyError Str
  | .str value =>
    if strip value = [] then
      .error (rejected "credential health state has no observation timestamp")
    else match py.fromisoformat (isoText (strip value)) with
      | none => .error (rejected "credential health state has an invalid observation timestamp")
      | some t =>
        if py.hasZone (isoText (strip value)) then (astimezone t).map (stamp py)
        else .error
          (rejected "credential health state observation timestamp has no timezone")
  | _ => .error (rejected "credential health state has no observation timestamp")

/-- The document of `adapt_legacy_quota_state`. -/
def stateDocument (total available limited unobserved : ℕ) (observedAt : Str) : Dict :=
  [(lit "schema", .str accountStateSchema),
    (lit "source", .str (lit "credential-health-summary")), (lit "observedAt", .str observedAt),
    (lit "accountCounts", .obj (countsOf total available limited 0)),
    (lit "unobservedAccounts", .int unobserved)]

/-- `adapt_legacy_quota_state` -/
def adaptLegacyQuotaState (raw : Bytes) : Except PyError Dict :=
  match py.loads raw with
  | .raised e => .error e
  | .value (.obj source) => do
    let total ← requireCount source (lit "total")
    let ready ← requireCount source (lit "ready")
    let warning ← requireCount source (lit "warning")
    let limited ← requireCount source (lit "limited")
    let failed ← requireCount source (lit "failed")
    require (total = ready + warning + limited + failed)
      (rejected "credential health state counts do not add up")
    let observedAt ← timestamp py (get source (lit "checked_at"))
    return stateDocument total (ready + warning) limited failed observedAt
  | .value _ => .error (rejected "credential health state must be an object")
  | _ => .error (rejected "credential health state is not valid JSON")

/-! ### The classes of a sweep -/

/-- Every result is in at most one class. -/
theorem classes_le (probes : List (Option Dict)) :
    available py probes + limited py probes ≤ probes.length := by
  unfold available limited statusCount
  induction probes with
  | nil => exact le_rfl
  | cons item probes ih =>
    have h1 : lit "ready" ≠ lit "warning" := by decide
    have h2 : lit "ready" ≠ lit "limited" := by decide
    have h3 : lit "warning" ≠ lit "limited" := by decide
    simp only [List.countP_cons, List.length_cons, decide_eq_true_eq]
    by_cases hr : statusOf py item = lit "ready"
    · rw [if_pos hr, if_neg (hr ▸ h1), if_neg (hr ▸ h2)]
      omega
    by_cases hw : statusOf py item = lit "warning"
    · rw [if_neg hr, if_pos hw, if_neg (hw ▸ h3)]
      omega
    · rw [if_neg hr, if_neg hw]
      split_ifs <;> omega

theorem failed_add (probes : List (Option Dict)) :
    available py probes + limited py probes + failed py probes = probes.length := by
  have := classes_le py probes
  unfold failed
  omega

/-! ### Reading an encoded document -/

/-- The document could be written, and the decoder reads these bytes as it. -/
structure Encodes (raw : Bytes) (document : Dict) : Prop where
  writes : LegacyHealth.writable (.obj document) = true
  reads : ∃ root, py.loads raw = .value (.obj root) ∧ Same (.obj root) (.obj document)

/-- The text is a time with a zone, at the instant `t`. -/
structure Names (text : Str) (t : ℚ) : Prop where
  notBlank : strip text ≠ []
  reads : py.fromisoformat (isoText (strip text)) = some t
  zone : py.hasZone (isoText (strip text)) = true

variable {py}

theorem timestamp_of_names {text : Str} {t : ℚ} (h : Names py text t) (hr : inRange t = true) :
    timestamp py (.str text) = .ok (stamp py t) := by
  unfold timestamp
  dsimp only
  rw [if_neg h.notBlank, h.reads]
  dsimp only
  rw [if_pos h.zone, astimezone, if_pos hr]
  rfl

theorem requireCount_ok {document : Dict} {name : Str} {n : ℕ}
    (h : get document name = .int n) : requireCount document name = .ok n := by
  unfold requireCount
  rw [h, countOf_some.mpr rfl]

/-- A field with an atom holds the same atom in what the decoder reads. -/
theorem get_of_same {root document : Dict} (hs : Same (.obj root) (.obj document))
    (hnd : (document.map Prod.fst).Nodup) {key : Str} {v : Json} (hv : Atom v)
    (hd : get document key = v) : get root key = v := by
  obtain ⟨_, he, hperm⟩ := same_obj hs
  cases he
  have hsame := get_same hperm hnd key
  rw [hd] at hsame
  exact same_atom hv hsame

/-- **The summary of any sweep is adapted**, and the account state has its counts. -/
theorem adapt_summary {raw : Bytes} {probes : List (Option Dict)} {warning : ℤ} {checkedAt : Str}
    {t : ℚ} (h : Encodes py raw (summarizeProbes py probes warning checkedAt))
    (ht : Names py checkedAt t) (hr : inRange t = true) :
    adaptLegacyQuotaState py raw = .ok (stateDocument probes.length (available py probes)
      (limited py probes) (failed py probes) (stamp py t)) := by
  obtain ⟨root, hload, hs⟩ := h.reads
  have hnd : ((summarizeProbes py probes warning checkedAt).map Prod.fst).Nodup :=
    (by decide : [lit "state", lit "checked_at", lit "total", lit "available", lit "ready",
      lit "warning", lit "limited", lit "invalid", lit "failed", lit "zero_quota",
      lit "low_quota", lit "earliest_reset"].Nodup)
  have hatom := fun {key v} (hv : Atom v) => @get_of_same root _ hs hnd key v hv
  have htotal : get root (lit "total") = .int probes.length := hatom trivial rfl
  have hready : get root (lit "ready") = .int (statusCount py (lit "ready") probes) :=
    hatom trivial rfl
  have hwarning : get root (lit "warning") = .int (statusCount py (lit "warning") probes) :=
    hatom trivial rfl
  have hlimited : get root (lit "limited") = .int (limited py probes) := hatom trivial rfl
  have hfailed : get root (lit "failed") = .int (failed py probes) := hatom trivial rfl
  have hchecked : get root (lit "checked_at") = .str checkedAt := hatom trivial rfl
  have hsum : probes.length = statusCount py (lit "ready") probes +
      statusCount py (lit "warning") probes + limited py probes + failed py probes :=
    (failed_add py probes).symm
  unfold adaptLegacyQuotaState
  rw [hload]
  dsimp only
  rw [requireCount_ok htotal, requireCount_ok hready, requireCount_ok hwarning,
    requireCount_ok hlimited, requireCount_ok hfailed, hchecked, timestamp_of_names ht hr]
  have hrequire : require (decide (probes.length = statusCount py (lit "ready") probes +
      statusCount py (lit "warning") probes + limited py probes + failed py probes))
      (rejected "credential health state counts do not add up") = .ok () := by
    rw [decide_eq_true hsum]
    rfl
  simp only [bind, Except.bind, hrequire]
  rfl

/-- **The account state is read as the counts it was made of.** -/
theorem holds_stateDocument {raw : Bytes} {mtime : Option ℚ} {total a l unobserved : ℕ} {t : ℚ}
    (hsum : total = a + l + unobserved) (hclock : Python.Clock.Iso py t)
    (h : Encodes py raw (stateDocument total a l unobserved (stamp py t))) :
    Holds py (.file raw mtime) total a l 0 t := by
  obtain ⟨root, hload, hs⟩ := h.reads
  have hnd : ((stateDocument total a l unobserved (stamp py t)).map Prod.fst).Nodup :=
    (by decide : [lit "schema", lit "source", lit "observedAt", lit "accountCounts",
      lit "unobservedAccounts"].Nodup)
  have hatom := fun {key v} (hv : Atom v) => @get_of_same root _ hs hnd key v hv
  obtain ⟨_, he, hperm⟩ := same_obj hs
  cases he
  have hsame : Same (get root (lit "accountCounts")) (.obj (countsOf total a l 0)) :=
    get_same hperm hnd _
  obtain ⟨counts, hcounts, -⟩ := same_obj hsame
  rw [hcounts] at hsame
  have hcount := fun {key v} (hv : Atom v) =>
    @get_of_same counts _ hsame (by decide : countKeys.Nodup) key v hv
  have hraw : rawCounts root = .obj counts := by
    unfold rawCounts
    unfold Python.Value.get at hcounts
    rcases hlookup : root.lookup (lit "accountCounts") with _ | v
    · rw [hlookup] at hcounts
      cases hcounts
    · rw [hlookup] at hcounts
      exact hcounts
  have htime : Shared.Receipt.time py (.str (stamp py t)) = some t := by
    obtain ⟨hstrip, htext, hne, -⟩ := hclock.stamped
    unfold Shared.Receipt.time
    dsimp only
    rw [hstrip, if_neg hne, htext, hclock.reads, Option.filter_some, hclock.zone]
    rfl
  refine ⟨raw, mtime, root, rfl, hload, ?_, ?_, ?_, ?_, ?_⟩
  · rw [hraw]; exact hcount trivial rfl
  · rw [hraw]; exact hcount trivial rfl
  · rw [hraw]; exact hcount trivial rfl
  · rw [hraw]; exact hcount trivial rfl
  · have hschema : get root (lit "schema") = .str accountStateSchema := hatom trivial rfl
    have hobserved : get root (lit "observedAt") = .str (stamp py t) := hatom trivial rfl
    have hunobserved : get root (lit "unobservedAccounts") = .int unobserved := hatom trivial rfl
    rw [if_pos hschema, hobserved]
    exact ⟨htime, unobserved, hunobserved, by omega⟩

end Cloudx.Cloud.AccountState
