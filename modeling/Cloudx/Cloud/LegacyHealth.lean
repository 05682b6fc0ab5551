import Cloudx.Cloud.HealthRoundTrip
import Cloudx.Cloud.PublicMetadata
import Cloudx.Python.Compact

/-! # The legacy side of the health bridge

`build_legacy_health` maps a formal document to the document that the previous consumer reads, and
`validate_legacy_health` checks such a document: its fields, the sums of its counts, what is derived
from them, and a digest over its canonical encoding. -/

namespace Cloudx.Cloud.LegacyHealth

open Cloudx.Python.Text Cloudx.Python.Value Cloudx.Python.Dump Cloudx.Python.Canonical
open Cloudx.Python.Compact
open Cloudx.Lib.Checks
open Cloudx.Cloud.Health Cloudx.Cloud.HealthBridge

variable (py : Py)

/-! ### Digests -/

/-- An integer with at most 4300 digits, which is as many as the interpreter writes. -/
def maxInteger : ℕ := 10 ^ 4300

mutual

/-- Every integer in the value can be written. -/
def writable : Json → Bool
  | .int n => n.natAbs < maxInteger
  | .arr items => writableItems items
  | .obj fields => writableFields fields
  | _ => true

/-- The items of a list are writable. -/
def writableItems : List Json → Bool
  | [] => true
  | v :: vs => writable v && writableItems vs

/-- The values of a dict are writable. -/
def writableFields : List (Str × Json) → Bool
  | [] => true
  | (_, v) :: kvs => writable v && writableFields kvs

end

/-- `_canonical` -/
def canonical (document : Dict) : Except PyError Bytes :=
  if writable (.obj document) then .ok (utf8 (compact py (.obj document))) else .error .value

/-- `_digest` -/
def digestOf (document : Dict) : Except PyError Str := do
  let encoded ← canonical py (pop document (lit "digest"))
  return lit "sha256:" ++ py.sha256 encoded

/-! ### The checks -/

/-- `PROCESS_STATES` -/
def processStates : List Str :=
  [lit "active", lit "activating", lit "deactivating", lit "failed", lit "inactive", lit "unknown"]

/-- `SERVICE_STATES` -/
def serviceStates : List Str := [lit "ready", lit "degraded", lit "offline", lit "unknown"]

/-- `CAPACITY_STATES` -/
def capacityStates : List Str := [lit "ready", lit "degraded", lit "unavailable", lit "unknown"]

/-- `LEGACY_CONTRACT` -/
def legacyContract : Str := lit "cloudx.health"

/-- `REVISION_RE.fullmatch(revision)` -/
def isRevision (s : Str) : Bool :=
  7 ≤ s.length && s.length ≤ 64 && s.all fun c => (97 ≤ c && c ≤ 102) || (48 ≤ c && c ≤ 57)

/-- `_optional_timestamp` -/
def optionalTimestamp (label : String) : Json → Except PyError Unit
  | .null => .ok ()
  | value => do
    let _ ← timestamp py label value

/-- `_capacity_state` -/
def capacityState (total ready blocked : ℕ) : Str :=
  if 0 < total ∧ ready = total then lit "ready"
  else if 0 < ready then lit "degraded"
  else if 0 < blocked then lit "unavailable"
  else lit "unknown"

/-- `value == 1` -/
def isOne : Json → Bool
  | .int n => n = 1
  | .bool b => b
  | .float x => x = .finite 1
  | _ => false

/-- `isinstance(value, bool)` -/
def isBool : Json → Bool
  | .bool _ => true
  | _ => false

/-- `{name: _count(value, label % name) for name, value in counts.items()}` -/
def countAll (label : String) : List (Str × Json) → Except PyError (List (Str × ℕ))
  | [] => .ok []
  | (name, value) :: rest => do
    let n ← requireCount (label ++ "." ++ String.ofList (name.map Char.ofNat)) value
    let ns ← countAll label rest
    return (name, n) :: ns

/-- `counts[name]` -/
def count (counts : List (Str × ℕ)) (name : String) : ℕ := (counts.lookup (lit name)).getD 0

/-- The fields of the producer. -/
def validateProducer (value : Json) : Except PyError Unit := do
  let producer ← exactKeys [lit "name", lit "version", lit "revision"] "legacy health producer" value
  require (get producer (lit "name") = .str (lit "cloudx"))
    (rejected "legacy health producer is invalid")
  let version ← boundedText "legacy health producer.version" 64 (get producer (lit "version"))
  require (isVersion version) (rejected "legacy health producer.version is invalid")
  let revision ← boundedText "legacy health producer.revision" 64 (get producer (lit "revision"))
  require (revision = lit "unknown" || isRevision revision)
    (rejected "legacy health producer.revision is invalid")

/-- `gateway["httpStatus"] is not None and not 100 <= _count(…) <= 599` -/
def validateHttpStatus : Json → Except PyError Unit
  | .null => .ok ()
  | value => do
    let code ← requireCount "legacy health gateway.httpStatus" value
    require (100 ≤ code && code ≤ 599) (rejected "legacy health gateway.httpStatus is invalid")

/-- The fields of the gateway. -/
def gatewayKeys : List Str :=
  [lit "state", lit "processState", lit "endpointState", lit "httpStatus", lit "observedAt"]

/-- The checks of the gateway. -/
def validateGateway (value : Json) : Except PyError Unit := do
  let gateway ← exactKeys gatewayKeys "legacy health gateway" value
  let _ ← requireMember serviceStates "legacy health gateway state is invalid"
    (get gateway (lit "state"))
  let _ ← requireMember serviceStates "legacy health gateway state is invalid"
    (get gateway (lit "endpointState"))
  let _ ← requireMember processStates "legacy health gateway process state is invalid"
    (get gateway (lit "processState"))
  validateHttpStatus (get gateway (lit "httpStatus"))
  let _ ← timestamp py "legacy health gateway.observedAt" (get gateway (lit "observedAt"))

/-- The fields of the capacity. -/
def capacityKeys : List Str :=
  [lit "state", lit "available", lit "accounts", lit "blockedReasons", lit "activeSessions",
    lit "observedAt", lit "earliestRecoveryAt"]

/-- `_count(capacity["activeSessions"], …)` unless it is `None`. -/
def validateSessions : Json → Except PyError Unit
  | .null => .ok ()
  | value => do
    let _ ← requireCount "legacy health activeSessions" value

/-- The checks of the counts against each other and against what is derived from them. -/
def validateCounts (capacity : Dict) : Except PyError Unit := do
  let accounts ← exactKeys [lit "total", lit "ready", lit "warning", lit "blocked", lit "unknown"]
    "legacy health accounts" (get capacity (lit "accounts"))
  let reasons ← exactKeys [lit "quota", lit "login", lit "cooldown", lit "other"]
    "legacy health blockedReasons" (get capacity (lit "blockedReasons"))
  let parsed ← countAll "legacy health accounts" accounts
  let parsedReasons ← countAll "legacy health blockedReasons" reasons
  require (count parsed "total" = count parsed "ready" + count parsed "warning" +
      count parsed "blocked" + count parsed "unknown")
    (rejected "legacy health account counts do not add up")
  require (count parsed "blocked" = (parsedReasons.map Prod.snd).sum)
    (rejected "legacy health blocked reasons do not add up")
  require (get capacity (lit "available") =
      .bool (decide (count parsed "ready" + count parsed "warning" > 0)))
    (rejected "legacy health available state is inconsistent")
  require (get capacity (lit "state") = .str (capacityState (count parsed "total")
      (count parsed "ready") (count parsed "blocked")))
    (rejected "legacy health capacity state is inconsistent")

/-- The checks of the capacity. -/
def validateCapacity (value : Json) : Except PyError Unit := do
  let capacity ← exactKeys capacityKeys "legacy health capacity" value
  let _ ← requireMember capacityStates "legacy health capacity state is invalid"
    (get capacity (lit "state"))
  require (isBool (get capacity (lit "available")))
    (rejected "legacy health capacity state is invalid")
  validateCounts capacity
  validateSessions (get capacity (lit "activeSessions"))
  optionalTimestamp py "legacy health capacity.observedAt" (get capacity (lit "observedAt"))
  optionalTimestamp py "legacy health capacity.earliestRecoveryAt"
    (get capacity (lit "earliestRecoveryAt"))

/-- The checks of the imports. -/
def validateImports (value : Json) : Except PyError Unit := do
  let imports ← exactKeys [lit "state", lit "processState", lit "pendingFailures",
    lit "lastFailureAt"] "legacy health imports" value
  let _ ← requireMember serviceStates "legacy health import state is invalid"
    (get imports (lit "state"))
  let _ ← requireMember processStates "legacy health import state is invalid"
    (get imports (lit "processState"))
  let _ ← requireCount "legacy health imports.pendingFailures" (get imports (lit "pendingFailures"))
  optionalTimestamp py "legacy health imports.lastFailureAt" (get imports (lit "lastFailureAt"))

/-- The check of the digest. -/
def validateDigest (root : Dict) : Except PyError Unit := do
  let digest ← boundedText "legacy health digest" 80 (get root (lit "digest"))
  let expected ← digestOf py root
  require (digest = expected) (rejected "legacy health digest is invalid")

/-- The fields of a legacy document. -/
def legacyKeys : List Str :=
  [lit "contract", lit "schemaVersion", lit "generatedAt", lit "producer", lit "gateway",
    lit "capacity", lit "imports", lit "digest"]

/-- `validate_legacy_health` -/
def validateLegacyHealth (document : Json) : Except PyError Unit := do
  let root ← exactKeys legacyKeys "legacy health" document
  require (get root (lit "contract") = .str legacyContract && isOne (get root (lit "schemaVersion")))
    (rejected "legacy health identity is unsupported")
  let _ ← timestamp py "legacy health generatedAt" (get root (lit "generatedAt"))
  validateProducer (get root (lit "producer"))
  validateGateway py (get root (lit "gateway"))
  validateCapacity py (get root (lit "capacity"))
  validateImports py (get root (lit "imports"))
  validateDigest py root

/-! ### The builder -/

/-- `_revision` -/
def revisionOf (value : Str) : Str :=
  let candidate := py.lower (strip value)
  if isRevision candidate then candidate else lit "unknown"

/-- The document of `build_legacy_health`, without its digest. -/
def unsigned (checkedAt : Str) (version revision gateway imports : Str) (total ready limited
    unavailable : ℕ) (observed : Json) : Dict :=
  [(lit "contract", .str legacyContract), (lit "schemaVersion", .int 1),
    (lit "generatedAt", .str checkedAt),
    (lit "producer", .obj [(lit "name", .str (lit "cloudx")), (lit "version", .str version),
      (lit "revision", .str revision)]),
    (lit "gateway", .obj [(lit "state", .str gateway), (lit "processState", .str (lit "unknown")),
      (lit "endpointState", .str gateway), (lit "httpStatus", .null),
      (lit "observedAt", .str checkedAt)]),
    (lit "capacity", .obj [
      (lit "state", .str (capacityState total ready (limited + unavailable))),
      (lit "available", .bool (decide (ready > 0))),
      (lit "accounts", .obj [(lit "total", .int total), (lit "ready", .int ready),
        (lit "warning", .int 0), (lit "blocked", .int (limited + unavailable : ℕ)),
        (lit "unknown", .int ((total : ℤ) - ready - (limited + unavailable)))]),
      (lit "blockedReasons", .obj [(lit "quota", .int limited), (lit "login", .int 0),
        (lit "cooldown", .int 0), (lit "other", .int unavailable)]),
      (lit "activeSessions", .null), (lit "observedAt", observed),
      (lit "earliestRecoveryAt", .null)]),
    (lit "imports", .obj [(lit "state", .str imports), (lit "processState", .str (lit "unknown")),
      (lit "pendingFailures", .int 0), (lit "lastFailureAt", .null)])]

/-- `(checked_at - timedelta(seconds=age)).isoformat()`, unless the freshness is unknown. -/
def observedText (checked : ℚ) (freshness : Dict) : Except PyError Json :=
  if get freshness (lit "state") = .str (lit "unknown") then .ok .null
  else
    let observed := checked - countAt freshness "ageSeconds"
    if inRange observed then .ok (.str (py.isoformat observed))
    else .error (rejected "formal health freshness age is out of range")

/-- `str(value)` of a text. -/
def textOf : Json → Str
  | .str s => s
  | _ => []

/-- `build_legacy_health` -/
def buildLegacyHealth (isWord : ℕ → Bool) (formal : Dict) (producerRevision : Str) :
    Except PyError Dict := do
  let source ← parseFormalHealth py (← canonical py formal)
  let checkedAt ← timestamp py "formal health checkedAt" (get source (lit "checkedAt"))
  let counts := asDict (get source (lit "accountCounts"))
  let observed ← observedText py checkedAt (asDict (get source (lit "freshness")))
  let gateway := (gatewayStates.lookup (textOf (get source (lit "gatewayStatus")))).getD []
  let imports := (importStates.lookup (textOf (get source (lit "importStatus")))).getD []
  let document := unsigned (py.isoformat checkedAt) (textOf (get source (lit "cloudxVersion")))
    (revisionOf py producerRevision) gateway imports (countAt counts "total").toNat
    (countAt counts "available").toNat (countAt counts "limited").toNat
    (countAt counts "unavailable").toNat observed
  let digest ← digestOf py document
  let signed := set document (lit "digest") (.str digest)
  validateLegacyHealth py (.obj signed)
  PublicMetadata.validatePublicDocument py isWord (.obj signed)

/-! ### The built document is valid -/

/-- `hashlib.sha256(raw).hexdigest()` has 64 small hexadecimal digits. -/
def HexDigest : Prop := ∀ raw, (py.sha256 raw).length = 64 ∧
  ∀ c ∈ py.sha256 raw, (97 ≤ c ∧ c ≤ 102) ∨ (48 ≤ c ∧ c ≤ 57)

theorem dated_iso {t : ℚ} (h : Python.Clock.Iso py t) : Dated py (.str (py.isoformat t)) t := by
  obtain ⟨hstrip, htext, hne, hlen, -⟩ := h.text
  refine ⟨py.isoformat t, rfl, ⟨by rwa [hstrip], hlen⟩, ?_, ?_⟩
  · rw [hstrip, htext]; exact h.reads
  · rw [hstrip, htext]; exact h.zone

/-- The data of a legacy document that make it valid. -/
structure Parts (checked : ℚ) (version revision gateway imports : Str) (total ready limited
    unavailable : ℕ) (observed : Json) : Prop where
  clock : Python.Clock.Iso py checked
  version : Bounded 64 version ∧ isVersion (strip version) = true
  revision : revision = lit "unknown" ∨ isRevision revision = true
  gateway : gateway ∈ serviceStates
  imports : imports ∈ serviceStates
  sums : ready + limited + unavailable ≤ total
  observed : observed = .null ∨ ∃ t, Python.Clock.Iso py t ∧ observed = .str (py.isoformat t)

section

variable {py} {checked : ℚ} {version revision gateway imports : Str}
  {total ready limited unavailable : ℕ} {observed : Json}

theorem revision_bounded {revision : Str} (h : revision = lit "unknown" ∨ isRevision revision = true) :
    Bounded 64 revision ∧ strip revision = revision := by
  rcases h with rfl | h
  · exact ⟨⟨by decide, by decide⟩, by decide⟩
  · simp only [isRevision, Bool.and_eq_true, decide_eq_true_eq, List.all_eq_true] at h
    have hstrip : strip revision = revision := by
      refine Python.Clock.strip_of_all fun c hc => ?_
      have hhex : ∀ c < 103, 48 ≤ c → isSpace c = false := by decide
      have := h.2 c hc
      simp only [Bool.or_eq_true, Bool.and_eq_true, decide_eq_true_eq] at this
      exact hhex c (by omega) (by omega)
    refine ⟨⟨?_, h.1.2⟩, hstrip⟩
    rw [hstrip]
    rintro rfl
    exact absurd h.1.1 (by decide)

theorem optionalTimestamp_observed (label : String)
    (h : observed = .null ∨ ∃ t, Python.Clock.Iso py t ∧ observed = .str (py.isoformat t)) :
    optionalTimestamp py label observed = .ok () := by
  rcases h with rfl | ⟨t, ht, rfl⟩
  · rfl
  · unfold optionalTimestamp
    rw [bind_ok_iff]
    exact ⟨t, (timestamp_ok py).mpr ⟨dated_iso py ht, ht.inCalendar⟩, rfl⟩

theorem countAll_ints (label : String) (counts : List (Str × ℕ)) :
    countAll label (counts.map fun nc => (nc.1, .int nc.2)) = .ok counts := by
  induction counts with
  | nil => rfl
  | cons nc counts ih =>
    rw [List.map_cons, countAll, bind_ok_iff]
    refine ⟨nc.2, requireCount_ok.mpr rfl, ?_⟩
    rw [bind_ok_iff]
    exact ⟨counts, ih, rfl⟩

theorem validateCounts_unsigned (hsum : ready + limited + unavailable ≤ total) {capacity : Dict}
    (haccounts : get capacity (lit "accounts") = .obj [(lit "total", .int total),
      (lit "ready", .int ready), (lit "warning", .int 0),
      (lit "blocked", .int (limited + unavailable : ℕ)),
      (lit "unknown", .int ((total : ℤ) - ready - (limited + unavailable)))])
    (hreasons : get capacity (lit "blockedReasons") = .obj [(lit "quota", .int limited),
      (lit "login", .int 0), (lit "cooldown", .int 0), (lit "other", .int unavailable)])
    (havailable : get capacity (lit "available") = .bool (decide (ready > 0)))
    (hstate : get capacity (lit "state") =
      .str (capacityState total ready (limited + unavailable))) :
    validateCounts capacity = .ok () := by
  have hunknown : (total : ℤ) - ready - (limited + unavailable) =
      (total - ready - (limited + unavailable) : ℕ) := by omega
  unfold validateCounts
  simp only [bind_ok_iff, exactKeys_ok, require_ok, haccounts, hreasons, hunknown]
  refine ⟨_, ⟨rfl, rfl⟩, _, ⟨rfl, rfl⟩, [(lit "total", total), (lit "ready", ready),
    (lit "warning", 0), (lit "blocked", limited + unavailable),
    (lit "unknown", total - ready - (limited + unavailable))], ?_,
    [(lit "quota", limited), (lit "login", 0), (lit "cooldown", 0), (lit "other", unavailable)],
    ?_, (), ?_, (), ?_, (), ?_, ?_⟩
  · exact countAll_ints _ [(lit "total", total), (lit "ready", ready), (lit "warning", 0),
      (lit "blocked", limited + unavailable),
      (lit "unknown", total - ready - (limited + unavailable))]
  · exact countAll_ints _ [(lit "quota", limited), (lit "login", 0), (lit "cooldown", 0),
      (lit "other", unavailable)]
  · refine decide_eq_true ?_
    show total = ready + 0 + (limited + unavailable) + (total - ready - (limited + unavailable))
    omega
  · refine decide_eq_true ?_
    show limited + unavailable = limited + (0 + (0 + (unavailable + 0)))
    omega
  · exact decide_eq_true havailable
  · exact decide_eq_true hstate

theorem validate_unsigned (h : Parts py checked version revision gateway imports total ready limited
    unavailable observed) {digest : Str}
    (hdigest : digestOf py (unsigned (py.isoformat checked) version revision gateway imports total
      ready limited unavailable observed) = .ok digest)
    (hbounded : Bounded 80 digest ∧ strip digest = digest) :
    validateLegacyHealth py (.obj (unsigned (py.isoformat checked) version revision gateway imports
      total ready limited unavailable observed ++ [(lit "digest", .str digest)])) = .ok () := by
  obtain ⟨hrevision, hstrip⟩ := revision_bounded h.revision
  have hunknown : lit "unknown" ∈ processStates := by decide
  have hcapacity : capacityState total ready (limited + unavailable) ∈ capacityStates := by
    unfold capacityState
    split_ifs <;> decide
  unfold validateLegacyHealth
  simp only [bind_ok_iff, exactKeys_ok, require_ok, timestamp_ok]
  refine ⟨_, ⟨rfl, rfl⟩, (), rfl, checked, ⟨dated_iso py h.clock, h.clock.inCalendar⟩, (), ?_, (), ?_,
    (), ?_, (), ?_, ?_⟩
  · unfold validateProducer
    simp only [bind_ok_iff, exactKeys_ok, require_ok, boundedText_ok]
    refine ⟨_, ⟨rfl, rfl⟩, (), rfl, _, ⟨version, rfl, h.version.1, rfl⟩, (), h.version.2, _,
      ⟨revision, rfl, hrevision, rfl⟩, ?_⟩
    rw [hstrip]
    rcases h.revision with hr | hr
    · rw [decide_eq_true hr]; rfl
    · rw [hr, Bool.or_true]
  · unfold validateGateway
    simp only [bind_ok_iff, exactKeys_ok, requireMember_ok, timestamp_ok]
    exact ⟨_, ⟨rfl, rfl⟩, gateway, ⟨rfl, h.gateway⟩, gateway, ⟨rfl, h.gateway⟩, _,
      ⟨rfl, hunknown⟩, (), rfl, checked, ⟨dated_iso py h.clock, h.clock.inCalendar⟩, rfl⟩
  · unfold validateCapacity
    simp only [bind_ok_iff, exactKeys_ok, requireMember_ok, require_ok]
    exact ⟨_, ⟨rfl, rfl⟩, _, ⟨rfl, hcapacity⟩, (), rfl, (),
      validateCounts_unsigned h.sums rfl rfl rfl rfl, (), rfl, (),
      optionalTimestamp_observed _ h.observed, rfl⟩
  · unfold validateImports
    simp only [bind_ok_iff, exactKeys_ok, requireMember_ok, requireCount_ok]
    exact ⟨_, ⟨rfl, rfl⟩, imports, ⟨rfl, h.imports⟩, _, ⟨rfl, hunknown⟩, 0, rfl, rfl⟩
  · unfold validateDigest
    simp only [bind_ok_iff, boundedText_ok, require_ok]
    refine ⟨digest, ⟨digest, rfl, hbounded.1, hbounded.2.symm⟩, digest, ?_, decide_eq_true rfl⟩
    have hpop : pop (unsigned (py.isoformat checked) version revision gateway imports total ready
        limited unavailable observed ++ [(lit "digest", .str digest)]) (lit "digest") =
        unsigned (py.isoformat checked) version revision gateway imports total ready limited
          unavailable observed := rfl
    have hpop' : pop (unsigned (py.isoformat checked) version revision gateway imports total ready
        limited unavailable observed) (lit "digest") =
        unsigned (py.isoformat checked) version revision gateway imports total ready limited
          unavailable observed := rfl
    rw [digestOf, hpop]
    rw [digestOf, hpop'] at hdigest
    exact hdigest

/-! ### It is public -/

open PublicMetadata in
/-- A key of small and capital ASCII letters that names nothing of Phi. -/
def plainKey (key : Str) : Bool :=
  key.all (· < 128) && decide ((asciiLower key).filter
    (fun c => (97 ≤ c && c ≤ 122) || (48 ≤ c && c ≤ 57)) ∉ forbiddenKeys)

open PublicMetadata in
theorem normalized_plain {key : Str} (h : plainKey key = true) :
    normalized py key ∉ forbiddenKeys := by
  rw [plainKey, Bool.and_eq_true, List.all_eq_true, decide_eq_true_eq] at h
  unfold normalized
  rw [py.casefold_ascii key fun c hc => of_decide_eq_true (h.1 c hc)]
  exact h.2

/-- A text without `:`, `=` and `/`. -/
def PlainText (s : Str) : Prop := 58 ∉ s ∧ 61 ∉ s ∧ 47 ∉ s

instance (s : Str) : Decidable (PlainText s) := by unfold PlainText; infer_instance

theorem mem_strip {s : Str} {c : ℕ} (hc : c ∈ s) : isSpace c = true ∨ c ∈ strip s := by
  have hdrop : ∀ {t : Str}, c ∈ t → isSpace c = true ∨ c ∈ t.dropWhile isSpace := by
    intro t ht
    rw [← @List.takeWhile_append_dropWhile _ isSpace t] at ht
    rcases List.mem_append.mp ht with ht | ht
    · exact .inl (List.mem_takeWhile_imp ht)
    · exact .inr ht
  rcases hdrop hc with h | h
  · exact .inl h
  · rcases hdrop (List.mem_reverse.mpr h) with h | h
    · exact .inl h
    · exact .inr (List.mem_reverse.mpr h)

/-- The characters of a version, with the blanks around it. -/
theorem version_chars {text : Str} (h : isVersion (strip text) = true) {c : ℕ} (hc : c ∈ text) :
    isSpace c = true ∨ (43 ≤ c ∧ c < 123 ∧ c ≠ 58 ∧ c ≠ 61 ∧ c ≠ 47) := by
  rcases mem_strip hc with hs | hs
  · exact .inl hs
  refine .inr ?_
  have hchar : ∀ d < 123, (isAlnum d || decide (d ∈ lit ".+_-")) = true →
      43 ≤ d ∧ d ≠ 58 ∧ d ≠ 61 ∧ d ≠ 47 := by decide
  have hlt : ∀ {d : ℕ}, (isAlnum d || decide (d ∈ lit ".+_-")) = true → d < 123 := by
    intro d hd
    rw [Bool.or_eq_true] at hd
    rcases hd with hd | hd
    · simp only [isAlnum, Bool.or_eq_true, Bool.and_eq_true, decide_eq_true_eq] at hd
      omega
    · exact (show ∀ d ∈ lit ".+_-", d < 123 by decide) d (of_decide_eq_true hd)
  have hall : (isAlnum c || decide (c ∈ lit ".+_-")) = true := by
    rcases hv : strip text with _ | ⟨d, v⟩
    · rw [hv] at hs; cases hs
    rw [hv, isVersion, Bool.and_eq_true, Bool.and_eq_true, List.all_eq_true] at h
    rw [hv] at hs
    rcases List.mem_cons.mp hs with rfl | hs
    · rw [h.1.1]; rfl
    · exact h.2 c hs
  obtain ⟨h1, h2⟩ := hchar c (hlt hall) hall
  exact ⟨h1, hlt hall, h2⟩

theorem version_plain {text : Str} (h : isVersion (strip text) = true) :
    PlainText text ∧ BasicText text := by
  have hspace : isSpace 58 = false ∧ isSpace 61 = false ∧ isSpace 47 = false := by decide
  have hne : ∀ {x : ℕ}, isSpace x = false → (x = 58 ∨ x = 61 ∨ x = 47) → x ∉ text := by
    intro x hx he hmem
    rcases version_chars h hmem with hs | hs
    · rw [hx] at hs; cases hs
    · omega
  refine ⟨⟨hne hspace.1 (.inl rfl), hne hspace.2.1 (.inr (.inl rfl)),
    hne hspace.2.2 (.inr (.inr rfl))⟩, fun c hc => .inl ?_⟩
  rcases version_chars h hc with hs | hs
  · simp only [isSpace, Bool.or_eq_true, Bool.and_eq_true, decide_eq_true_eq, beq_iff_eq] at hs
    omega
  · omega

theorem revision_plain {revision : Str} (h : revision = lit "unknown" ∨ isRevision revision = true) :
    PlainText revision ∧ BasicText revision := by
  rcases h with rfl | h
  · exact ⟨by decide, fun c hc => .inl ((show ∀ c ∈ lit "unknown", c < 0xD800 by decide) c hc)⟩
  · simp only [isRevision, Bool.and_eq_true, decide_eq_true_eq, List.all_eq_true,
      Bool.or_eq_true] at h
    refine ⟨⟨fun hm => ?_, fun hm => ?_, fun hm => ?_⟩, fun c hc => .inl ?_⟩
    · have := h.2 _ hm; omega
    · have := h.2 _ hm; omega
    · have := h.2 _ hm; omega
    · have := h.2 c hc; omega

theorem iso_basic {t : ℚ} (h : Python.Clock.Iso py t) : BasicText (py.isoformat t) := by
  intro c hc
  rcases h.text.2.2.2.2 c hc with hc | rfl
  · exact .inl ((show ∀ c ∈ Python.Clock.isoChars, c < 0xD800 by decide) c hc)
  · exact .inl (by decide)

section

open PublicMetadata

variable {isWord : ℕ → Bool}

theorem harmless_plain {s : Str} (h : PlainText s) : Harmless py isWord (.str s) :=
  ⟨no_assignment_of_chars ⟨h.1, h.2.1⟩ none, no_path h.2.2 none⟩

theorem harmless_iso {t : ℚ} (h : Python.Clock.Iso py t) :
    Harmless py isWord (.str (py.isoformat t)) := by
  have hchars := h.text.2.2.2.2
  have hiso : ∀ c ∈ Python.Clock.isoChars, reLower c ≠ 97 ∧ reLower c ≠ 101 ∧ c ≠ 47 := by decide
  have hplus : reLower 43 ≠ 97 ∧ reLower 43 ≠ 101 := by decide
  constructor
  · refine no_assignment_of_vowels (fun c hc => ?_) none
    rcases hchars c hc with hc | rfl
    · exact ⟨(hiso c hc).1, (hiso c hc).2.1⟩
    · exact hplus
  · refine no_path (fun hm => ?_) none
    rcases hchars 47 hm with hm | hm
    · exact (hiso 47 hm).2.2 rfl
    · omega

/-- The digest has a colon, but no name in front of it. -/
theorem harmless_digest {hex : Str} (h : ∀ c ∈ hex, (97 ≤ c ∧ c ≤ 102) ∨ (48 ≤ c ∧ c ≤ 57)) :
    Harmless py isWord (.str (lit "sha256:" ++ hex)) := by
  have hsplit : lit "sha256:" ++ hex = lit "sha256" ++ 58 :: hex := rfl
  have hchars : ∀ c ∈ lit "sha256:" ++ hex, isSpace c = false ∧ c ≠ 61 ∧ c ≠ 47 := by
    have hhex : ∀ c < 103, 48 ≤ c → isSpace c = false := by decide
    have hfront : ∀ c ∈ lit "sha256:", isSpace c = false ∧ c ≠ 61 ∧ c ≠ 47 := by decide
    intro c hc
    rcases List.mem_append.mp hc with hc | hc
    · exact hfront c hc
    · have := h c hc
      exact ⟨hhex c (by omega) (by omega), by omega, by omega⟩
  refine ⟨?_, no_path (fun hm => (hchars 47 hm).2.2 rfl) none⟩
  by_contra hmatch
  rw [Bool.not_eq_false] at hmatch
  obtain ⟨name, hname, front, found, rest, hs, hfound, hrest⟩ := assignment_parts hmatch
  have hmem : ∀ c ∈ rest, c ∈ lit "sha256:" ++ hex := fun c hc => by
    rw [hs]; exact List.mem_append_right _ hc
  -- what follows the name is the colon
  obtain ⟨tail, rfl⟩ : ∃ tail, rest = 58 :: tail := by
    rcases rest with _ | ⟨c, tail⟩
    · cases hrest
    · rw [startsAssignment, List.dropWhile_cons_of_neg
        (by rw [(hchars c (hmem c List.mem_cons_self)).1]; simp)] at hrest
      simp only [Bool.or_eq_true, decide_eq_true_eq] at hrest
      rcases hrest with rfl | rfl
      · exact ⟨tail, rfl⟩
      · exact absurd rfl (hchars 61 (hmem 61 List.mem_cons_self)).2.1
  have hno : 58 ∉ hex := fun hm => by have := h 58 hm; omega
  have hfront : front ++ found = lit "sha256" := by
    rw [hsplit] at hs
    exact ((List.append_cons_inj_of_notMem (by decide) hno).mp hs).1.symm
  have hne : name ≠ [] ∧ 54 ∉ name := (show ∀ name ∈ forbiddenNames, name ≠ [] ∧ 54 ∉ name by
    decide) name hname
  have hfound' : found ≠ [] := by
    rintro rfl
    exact hne.1 hfound.symm
  have hlast : found.getLast hfound' = 54 := by
    have := congrArg List.getLast? hfront
    rw [List.getLast?_append_of_ne_nil _ hfound', List.getLast?_eq_some_getLast hfound'] at this
    exact Option.some.inj this
  refine hne.2 ?_
  rw [← hfound]
  exact List.mem_map.mpr ⟨54, by rw [← hlast]; exact List.getLast_mem _, rfl⟩

/-- **The built document is public.** -/
theorem harmless_unsigned (hhex : HexDigest py) (h : Parts py checked version revision gateway imports
    total ready limited unavailable observed) (raw : Bytes) :
    Harmless py isWord (.obj (unsigned (py.isoformat checked) version revision gateway imports total
      ready limited unavailable observed ++
      [(lit "digest", .str (lit "sha256:" ++ py.sha256 raw))])) := by
  have hkey : ∀ {key : Str}, plainKey key = true → normalized py key ∉ forbiddenKeys :=
    fun hk => normalized_plain hk
  have hstate : ∀ {s : Str}, s ∈ serviceStates → Harmless py isWord (.str s) := by
    intro s hs
    exact harmless_plain ((show ∀ s ∈ serviceStates, PlainText s by decide) s hs)
  have hobserved : Harmless py isWord observed := by
    rcases h.observed with rfl | ⟨t, ht, rfl⟩
    · trivial
    · exact harmless_iso ht
  have hcapacity : Harmless py isWord
      (.str (capacityState total ready (limited + unavailable))) := by
    unfold capacityState
    split_ifs <;> exact harmless_plain (by decide)
  have hunknown : Harmless py isWord (.str (lit "unknown")) := harmless_plain (by decide)
  refine ⟨hkey (by decide), harmless_plain (by decide), hkey (by decide), trivial,
    hkey (by decide), harmless_iso h.clock, hkey (by decide), ?_, hkey (by decide), ?_,
    hkey (by decide), ?_, hkey (by decide), ?_, hkey (by decide), harmless_digest (hhex raw).2,
    trivial⟩
  · exact ⟨hkey (by decide), harmless_plain (by decide), hkey (by decide),
      harmless_plain (version_plain h.version.2).1, hkey (by decide),
      harmless_plain (revision_plain h.revision).1, trivial⟩
  · exact ⟨hkey (by decide), hstate h.gateway, hkey (by decide), hunknown, hkey (by decide),
      hstate h.gateway, hkey (by decide), trivial, hkey (by decide), harmless_iso h.clock, trivial⟩
  · refine ⟨hkey (by decide), hcapacity, hkey (by decide), trivial, hkey (by decide), ?_,
      hkey (by decide), ?_, hkey (by decide), trivial, hkey (by decide), hobserved,
      hkey (by decide), trivial, trivial⟩
    · exact ⟨hkey (by decide), trivial, hkey (by decide), trivial, hkey (by decide), trivial,
        hkey (by decide), trivial, hkey (by decide), trivial, trivial⟩
    · exact ⟨hkey (by decide), trivial, hkey (by decide), trivial, hkey (by decide), trivial,
        hkey (by decide), trivial, trivial⟩
  · exact ⟨hkey (by decide), hstate h.imports, hkey (by decide), hunknown, hkey (by decide), trivial,
      hkey (by decide), trivial, trivial⟩

end

end

end Cloudx.Cloud.LegacyHealth
