import Cloudx.Cloud.Capacity
import Cloudx.Cloud.Receipts
import Cloudx.Lib.Checks

/-! # The formal side of the legacy health bridge

`legacy_health_bridge.py` reads a `cloudx.health.v1` document strictly and rejects what is not one
with `LegacyHealthRejected`, the only exception its callers expect. `Formal` says which documents are
accepted. The checks go through the fields in a fixed order, so an exception of another kind needs the
fields before it to be valid: `Tame` says when none is met. -/

namespace Cloudx.Cloud.HealthBridge

open Cloudx.Python.Text Cloudx.Python.Value Cloudx.Python.Dump
open Cloudx.Lib.Checks
open Cloudx.Shared.Receipt (keysAre)
open Cloudx.Cloud.Health Cloudx.Cloud.Receipts

variable (py : Py)

/-! ### Checks -/

/-- `LegacyHealthRejected(message)` -/
def rejected (message : String) : PyError := .rejected message

/-- `_exact` -/
def exactKeys (keys : List Str) (label : String) : Json → Except PyError Dict
  | .obj d =>
    if keysAre d keys then .ok d
    else .error (rejected (label ++ " has missing or unknown fields"))
  | _ => .error (rejected (label ++ " has missing or unknown fields"))

/-- `_count` -/
def requireCount (label : String) (value : Json) : Except PyError ℕ :=
  match countOf value with
  | some n => .ok n
  | none => .error (rejected (label ++ " must be a non-negative integer"))

/-- `_timestamp` -/
def timestamp (label : String) : Json → Except PyError ℚ
  | .str value =>
    if strip value = [] ∨ 64 < value.length then
      .error (rejected (label ++ " must be a bounded timestamp"))
    else match py.fromisoformat (isoText (strip value)) with
      | none => .error (rejected (label ++ " must be an ISO-8601 timestamp"))
      | some t =>
        if py.hasZone (isoText (strip value)) then astimezone t
        else .error (rejected (label ++ " must include a timezone"))
  | _ => .error (rejected (label ++ " must be a bounded timestamp"))

/-- `_bounded_text` -/
def boundedText (label : String) (maximum : ℕ) : Json → Except PyError Str
  | .str value =>
    if strip value = [] ∨ maximum < value.length then
      .error (rejected (label ++ " must be bounded text"))
    else .ok (strip value)
  | _ => .error (rejected (label ++ " must be bounded text"))

/-- `if value not in states: raise`, for a set or a dict of texts. -/
def requireMember (states : List Str) (message : String) (value : Json) : Except PyError Str := do
  match ← memberText states value with
  | some s => .ok s
  | none => .error (rejected message)

/-- An ASCII letter or digit. -/
def isAlnum (c : ℕ) : Bool := (48 ≤ c && c ≤ 57) || (65 ≤ c && c ≤ 90) || (97 ≤ c && c ≤ 122)

/-- `VERSION_RE.fullmatch(version)` -/
def isVersion : Str → Bool
  | [] => false
  | c :: s => isAlnum c && s.length ≤ 63 && s.all fun d => isAlnum d || d ∈ lit ".+_-"

/-! ### The parser -/

/-- `GATEWAY_STATES` -/
def gatewayStates : List (Str × Str) :=
  [(lit "healthy", lit "ready"), (lit "degraded", lit "degraded"),
    (lit "unavailable", lit "offline"), (lit "unknown", lit "unknown")]

/-- `IMPORT_STATES` -/
def importStates : List (Str × Str) :=
  [(lit "ready", lit "unknown"), (lit "busy", lit "degraded"), (lit "degraded", lit "degraded"),
    (lit "unavailable", lit "offline"), (lit "unknown", lit "unknown")]

/-- The fields of a formal document. -/
def formalKeys : List Str :=
  [lit "schema", lit "cloudxVersion", lit "protocolVersion", lit "gatewayStatus",
    lit "importStatus", lit "accountCounts", lit "checkedAt", lit "freshness"]

/-- The fields of its freshness. -/
def freshnessKeys : List Str := [lit "state", lit "ageSeconds"]

/-- `json.loads(raw.decode("utf-8"))` with its two decode errors rejected. -/
def loadFormal (raw : Bytes) : Except PyError Json :=
  match py.loads raw with
  | .value v => .ok v
  | .raised e => .error e
  | _ => .error (rejected "formal health input is invalid JSON")

/-- The checks of the header: everything before the states. -/
def parseHeader (root : Dict) : Except PyError Unit := do
  require (get root (lit "schema") = .str healthSchema)
    (rejected "formal health schema is unsupported")
  let protocol ← requireCount "formal health protocolVersion" (get root (lit "protocolVersion"))
  require (protocol = 1) (rejected "formal health protocol is unsupported")
  let version ← boundedText "formal health cloudxVersion" 64 (get root (lit "cloudxVersion"))
  require (isVersion version) (rejected "formal health cloudxVersion is invalid")

/-- The checks of the account counts. -/
def parseCounts (value : Json) : Except PyError Unit := do
  let counts ← exactKeys countKeys "formal health accountCounts" value
  let total ← requireCount "formal health accountCounts.total" (get counts (lit "total"))
  let available ← requireCount "formal health accountCounts.available"
    (get counts (lit "available"))
  let limited ← requireCount "formal health accountCounts.limited" (get counts (lit "limited"))
  let unavailable ← requireCount "formal health accountCounts.unavailable"
    (get counts (lit "unavailable"))
  require (available + limited + unavailable ≤ total)
    (rejected "formal health account counts do not add up")

/-- The checks of the freshness. -/
def parseFreshness (value : Json) : Except PyError Unit := do
  let freshness ← exactKeys freshnessKeys "formal health freshness" value
  let _ ← requireMember Capacity.freshnessStates "formal health freshness state is invalid"
    (get freshness (lit "state"))
  let _ ← requireCount "formal health freshness.ageSeconds" (get freshness (lit "ageSeconds"))

/-- `parse_formal_health` -/
def parseFormalHealth (raw : Bytes) : Except PyError Dict := do
  let document ← loadFormal py raw
  let root ← exactKeys formalKeys "formal health" document
  parseHeader root
  let _ ← requireMember (gatewayStates.map Prod.fst) "formal health gatewayStatus is invalid"
    (get root (lit "gatewayStatus"))
  let _ ← requireMember (importStates.map Prod.fst) "formal health importStatus is invalid"
    (get root (lit "importStatus"))
  let _ ← timestamp py "formal health checkedAt" (get root (lit "checkedAt"))
  parseCounts (get root (lit "accountCounts"))
  parseFreshness (get root (lit "freshness"))
  return root

/-! ### What each check accepts, and what it raises -/

/-- `LegacyHealthRejected` -/
def IsRejected (e : PyError) : Prop := ∃ message, e = .rejected message

/-- A text of the bounded kind, of at most `maximum` characters. -/
def Bounded (maximum : ℕ) (value : Str) : Prop := strip value ≠ [] ∧ value.length ≤ maximum

/-- The value is one of these texts. -/
def OneOf (states : List Str) (value : Json) : Prop := ∃ s ∈ states, value = .str s

/-- The value is a bounded text of the instant `t`, with a zone. -/
def Dated (value : Json) (t : ℚ) : Prop :=
  ∃ text, value = .str text ∧ Bounded 64 text ∧ py.fromisoformat (isoText (strip text)) = some t ∧
    py.hasZone (isoText (strip text)) = true

theorem isRejected (message : String) : IsRejected (rejected message) := ⟨message, rfl⟩

theorem exactKeys_ok {keys : List Str} {label : String} {value : Json} {d : Dict} :
    exactKeys keys label value = .ok d ↔ value = .obj d ∧ keysAre d keys = true := by
  unfold exactKeys
  cases value with
  | obj fields =>
    dsimp only
    split_ifs with h
    · constructor
      · intro he; cases he; exact ⟨rfl, h⟩
      · rintro ⟨he, -⟩; cases he; rfl
    · constructor
      · intro he; cases he
      · rintro ⟨he, hk⟩; cases he; exact absurd hk h
  | _ =>
    constructor
    · intro he; cases he
    · rintro ⟨he, -⟩; cases he

theorem only_exactKeys {keys : List Str} {label : String} {value : Json} :
    Only IsRejected (exactKeys keys label value) := by
  unfold exactKeys
  cases value with
  | obj fields =>
    dsimp only
    split_ifs
    · exact only_ok _
    · exact only_error.mpr (isRejected _)
  | _ => exact only_error.mpr (isRejected _)

theorem requireCount_ok {label : String} {value : Json} {n : ℕ} :
    requireCount label value = .ok n ↔ value = .int n := by
  rw [← countOf_some]
  unfold requireCount
  rcases countOf value with _ | m
  · constructor <;> intro h <;> cases h
  · constructor
    · intro h; cases h; rfl
    · intro h; cases h; rfl

theorem only_requireCount {label : String} {value : Json} :
    Only IsRejected (requireCount label value) := by
  unfold requireCount
  rcases countOf value with _ | m
  · exact only_error.mpr (isRejected _)
  · exact only_ok m

theorem boundedText_ok {label : String} {maximum : ℕ} {value : Json} {s : Str} :
    boundedText label maximum value = .ok s ↔
      ∃ text, value = .str text ∧ Bounded maximum text ∧ s = strip text := by
  unfold boundedText Bounded
  cases value with
  | str text =>
    dsimp only
    split_ifs with h
    · constructor
      · intro he; cases he
      · rintro ⟨_, he, ⟨h1, h2⟩, -⟩
        cases he
        rcases h with h | h
        · exact absurd h h1
        · omega
    · rw [not_or, not_lt] at h
      constructor
      · intro he; cases he; exact ⟨text, rfl, h, rfl⟩
      · rintro ⟨_, he, -, rfl⟩; cases he; rfl
  | _ =>
    constructor
    · intro he; cases he
    · rintro ⟨_, he, -⟩; cases he

theorem only_boundedText {label : String} {maximum : ℕ} {value : Json} :
    Only IsRejected (boundedText label maximum value) := by
  unfold boundedText
  cases value with
  | str text =>
    dsimp only
    split_ifs
    · exact only_error.mpr (isRejected _)
    · exact only_ok _
  | _ => exact only_error.mpr (isRejected _)

theorem requireMember_ok {states : List Str} {message : String} {value : Json} {s : Str} :
    requireMember states message value = .ok s ↔ value = .str s ∧ s ∈ states := by
  unfold requireMember
  cases value with
  | str text =>
    show (match if text ∈ states then some text else none with
      | some s => Except.ok s | none => .error (rejected message)) = .ok s ↔ _
    split_ifs with h
    · constructor
      · intro he; cases he; exact ⟨rfl, h⟩
      · rintro ⟨he, -⟩; cases he; rfl
    · constructor
      · intro he; cases he
      · rintro ⟨he, hs⟩; cases he; exact absurd hs h
  | _ =>
    constructor
    · intro he; cases he
    · rintro ⟨he, -⟩; cases he

/-- A list or a dict cannot be looked up; every other value is found or rejected. -/
theorem only_requireMember {states : List Str} {message : String} {value : Json} :
    Only IsRejected (requireMember states message value) ↔ Hashable value := by
  unfold requireMember
  cases value with
  | str text =>
    show Only IsRejected (match if text ∈ states then some text else none with
      | some s => Except.ok s | none => .error (rejected message)) ↔ _
    refine iff_of_true ?_ trivial
    split_ifs
    · exact only_ok _
    · exact only_error.mpr (isRejected _)
  | arr items => exact iff_of_false (fun h => by obtain ⟨_, he⟩ := h _ rfl; cases he) fun h => h
  | obj fields => exact iff_of_false (fun h => by obtain ⟨_, he⟩ := h _ rfl; cases he) fun h => h
  | _ => exact iff_of_true (only_error.mpr (isRejected _)) trivial

theorem timestamp_cases {label : String} {value : Json} :
    (∃ t, Dated py value t ∧ timestamp py label value = astimezone t) ∨
    ((∀ t, ¬ Dated py value t) ∧ ∃ message, timestamp py label value = .error (rejected message)) := by
  unfold timestamp Dated Bounded
  cases value with
  | str text =>
    dsimp only
    by_cases h : strip text = [] ∨ 64 < text.length
    · rw [if_pos h]
      refine .inr ⟨?_, _, rfl⟩
      rintro t ⟨_, he, ⟨h1, h2⟩, -⟩
      cases he
      rcases h with h | h
      · exact h1 h
      · omega
    rw [if_neg h]
    rw [not_or, not_lt] at h
    rcases hp : py.fromisoformat (isoText (strip text)) with _ | t
    · refine .inr ⟨?_, _, rfl⟩
      rintro t ⟨_, he, -, hs, -⟩
      cases he
      rw [hp] at hs
      cases hs
    dsimp only
    by_cases hz : py.hasZone (isoText (strip text)) = true
    · rw [if_pos hz]
      exact .inl ⟨t, ⟨text, rfl, h, hp, hz⟩, rfl⟩
    · rw [if_neg hz]
      refine .inr ⟨?_, _, rfl⟩
      rintro t ⟨_, he, -, -, hz'⟩
      cases he
      exact hz hz'
  | _ =>
    refine .inr ⟨?_, _, rfl⟩
    rintro t ⟨_, he, -⟩
    cases he

theorem dated_unique {value : Json} {t t' : ℚ} (h : Dated py value t) (h' : Dated py value t') :
    t = t' := by
  obtain ⟨text, rfl, -, hp, -⟩ := h
  obtain ⟨_, he, -, hp', -⟩ := h'
  cases he
  exact Option.some.inj (hp.symm.trans hp')

theorem timestamp_ok {label : String} {value : Json} {t : ℚ} :
    timestamp py label value = .ok t ↔ Dated py value t ∧ inRange t = true := by
  rcases @timestamp_cases py label value with ⟨t', hd, he⟩ | ⟨hnone, message, he⟩
  · rw [he]
    unfold astimezone
    split_ifs with hr
    · constructor
      · intro h; cases h; exact ⟨hd, hr⟩
      · rintro ⟨h, -⟩; rw [dated_unique py h hd]
    · constructor
      · intro h; cases h
      · rintro ⟨h, h'⟩; rw [dated_unique py h hd] at h'; exact absurd h' hr
  · rw [he]
    constructor
    · intro h; cases h
    · rintro ⟨h, -⟩; exact absurd h (hnone t)

theorem only_timestamp {label : String} {value : Json} :
    Only IsRejected (timestamp py label value) ↔ ∀ t, Dated py value t → inRange t = true := by
  rcases @timestamp_cases py label value with ⟨t', hd, he⟩ | ⟨hnone, message, he⟩
  · rw [he]
    unfold astimezone
    split_ifs with hr
    · exact iff_of_true (only_ok _) fun t ht => by rw [dated_unique py ht hd]; exact hr
    · refine iff_of_false ?_ fun h => hr (h t' hd)
      intro h
      obtain ⟨_, he⟩ := h _ rfl
      cases he
  · rw [he]
    exact iff_of_true (only_error.mpr (isRejected _)) fun t ht => absurd ht (hnone t)

/-! ### The stages -/

/-- The header of a formal document. -/
structure Header (root : Dict) : Prop where
  schema : get root (lit "schema") = .str healthSchema
  protocol : get root (lit "protocolVersion") = .int 1
  version : ∃ text, get root (lit "cloudxVersion") = .str text ∧ Bounded 64 text ∧
    isVersion (strip text) = true

/-- The value holds these four counts, which add up. -/
structure Counts (value : Json) (t a l u : ℕ) : Prop where
  shape : ∃ counts, value = .obj counts ∧ keysAre counts countKeys = true ∧
    get counts (lit "total") = .int t ∧ get counts (lit "available") = .int a ∧
    get counts (lit "limited") = .int l ∧ get counts (lit "unavailable") = .int u
  sums : a + l + u ≤ t

/-- The value is a freshness with this state and age. -/
def Fresh (value : Json) (state : Str) (age : ℕ) : Prop :=
  ∃ freshness, value = .obj freshness ∧ keysAre freshness freshnessKeys = true ∧
    get freshness (lit "state") = .str state ∧ state ∈ Capacity.freshnessStates ∧
    get freshness (lit "ageSeconds") = .int age

theorem parseHeader_ok {root : Dict} {u : Unit} : parseHeader root = .ok u ↔ Header root := by
  unfold parseHeader
  simp only [bind_ok_iff, require_ok, requireCount_ok, boundedText_ok, decide_eq_true_eq]
  constructor
  · rintro ⟨_, hs, _, hp, _, rfl, _, ⟨text, hv, hb, rfl⟩, hver⟩
    exact ⟨hs, hp, text, hv, hb, hver⟩
  · rintro ⟨hs, hp, text, hv, hb, hver⟩
    exact ⟨(), hs, 1, hp, (), rfl, _, ⟨text, hv, hb, rfl⟩, hver⟩

theorem only_parseHeader {root : Dict} : Only IsRejected (parseHeader root) := by
  unfold parseHeader
  refine (only_require_bind (isRejected _)).mpr fun _ => ?_
  refine (only_bind_of only_requireCount).mpr fun _ _ => ?_
  refine (only_require_bind (isRejected _)).mpr fun _ => ?_
  refine (only_bind_of only_boundedText).mpr fun _ _ => ?_
  exact only_require (isRejected _)

theorem parseCounts_ok {value : Json} {v : Unit} :
    parseCounts value = .ok v ↔ ∃ t a l u, Counts value t a l u := by
  unfold parseCounts
  simp only [bind_ok_iff, exactKeys_ok, require_ok, requireCount_ok, decide_eq_true_eq]
  constructor
  · rintro ⟨counts, ⟨rfl, hk⟩, t, ht, a, ha, l, hl, u, hu, hsum⟩
    exact ⟨t, a, l, u, ⟨counts, rfl, hk, ht, ha, hl, hu⟩, hsum⟩
  · rintro ⟨t, a, l, u, ⟨counts, rfl, hk, ht, ha, hl, hu⟩, hsum⟩
    exact ⟨counts, ⟨rfl, hk⟩, t, ht, a, ha, l, hl, u, hu, hsum⟩

theorem only_parseCounts {value : Json} : Only IsRejected (parseCounts value) := by
  unfold parseCounts
  refine (only_bind_of only_exactKeys).mpr fun _ _ => ?_
  refine (only_bind_of only_requireCount).mpr fun _ _ => ?_
  refine (only_bind_of only_requireCount).mpr fun _ _ => ?_
  refine (only_bind_of only_requireCount).mpr fun _ _ => ?_
  refine (only_bind_of only_requireCount).mpr fun _ _ => ?_
  exact only_require (isRejected _)

theorem parseFreshness_ok {value : Json} {v : Unit} :
    parseFreshness value = .ok v ↔ ∃ state age, Fresh value state age := by
  unfold parseFreshness
  simp only [bind_ok_iff, exactKeys_ok, requireMember_ok, requireCount_ok]
  constructor
  · rintro ⟨freshness, ⟨rfl, hk⟩, state, ⟨hs, hmem⟩, age, hage, -⟩
    exact ⟨state, age, freshness, rfl, hk, hs, hmem, hage⟩
  · rintro ⟨state, age, freshness, rfl, hk, hs, hmem, hage⟩
    exact ⟨freshness, ⟨rfl, hk⟩, state, ⟨hs, hmem⟩, age, hage, rfl⟩

theorem only_parseFreshness {value : Json} : Only IsRejected (parseFreshness value) ↔
    ∀ freshness, value = .obj freshness → keysAre freshness freshnessKeys = true →
      Hashable (get freshness (lit "state")) := by
  unfold parseFreshness
  rw [only_bind_of only_exactKeys]
  simp only [exactKeys_ok]
  constructor
  · intro h freshness hv hk
    exact only_requireMember.mp (only_bind.mp (h freshness ⟨hv, hk⟩)).1
  · rintro h freshness ⟨hv, hk⟩
    refine (only_bind_of (only_requireMember.mpr (h freshness hv hk))).mpr fun _ _ => ?_
    exact (only_bind_of only_requireCount).mpr fun _ _ => only_ok ()

/-! ### What is accepted -/

/-- A document that the parser accepts, dated `checked`, with these counts, freshness and states. -/
structure Formal (root : Dict) (checked : ℚ) (t a l u : ℕ) (state : Str) (age : ℕ) : Prop where
  keys : keysAre root formalKeys = true
  header : Header root
  gateway : OneOf (gatewayStates.map Prod.fst) (get root (lit "gatewayStatus"))
  imports : OneOf (importStates.map Prod.fst) (get root (lit "importStatus"))
  dated : Dated py (get root (lit "checkedAt")) checked
  inCalendar : inRange checked = true
  counts : Counts (get root (lit "accountCounts")) t a l u
  fresh : Fresh (get root (lit "freshness")) state age

theorem loadFormal_ok {raw : Bytes} {v : Json} :
    loadFormal py raw = .ok v ↔ py.loads raw = .value v := by
  unfold loadFormal
  rcases py.loads raw with w | _ | _ | e
  · constructor <;> intro h <;> cases h <;> rfl
  all_goals constructor <;> intro h <;> cases h

/-- **Which documents are accepted.** -/
theorem parseFormalHealth_ok {raw : Bytes} {root : Dict} :
    parseFormalHealth py raw = .ok root ↔ py.loads raw = .value (.obj root) ∧
      ∃ checked t a l u state age, Formal py root checked t a l u state age := by
  unfold parseFormalHealth
  simp only [bind_ok_iff, loadFormal_ok, exactKeys_ok, parseHeader_ok, requireMember_ok,
    timestamp_ok, parseCounts_ok, parseFreshness_ok]
  constructor
  · rintro ⟨document, hl, root', ⟨rfl, hk⟩, _, hh, g, ⟨hg, hgm⟩, i, ⟨hi, him⟩, checked, ⟨hd, hr⟩, _,
      ⟨t, a, l, u, hc⟩, _, ⟨state, age, hf⟩, heq⟩
    cases heq
    exact ⟨hl, checked, t, a, l, u, state, age, hk, hh, ⟨g, hgm, hg⟩, ⟨i, him, hi⟩, hd, hr, hc, hf⟩
  · rintro ⟨hl, checked, t, a, l, u, state, age, hk, hh, ⟨g, hgm, hg⟩, ⟨i, him, hi⟩, hd, hr, hc, hf⟩
    exact ⟨_, hl, root, ⟨rfl, hk⟩, (), hh, g, ⟨hg, hgm⟩, i, ⟨hi, him⟩, checked, ⟨hd, hr⟩, (),
      ⟨t, a, l, u, hc⟩, (), ⟨state, age, hf⟩, rfl⟩

/-! ### What is raised -/

/-- The input is an object with the fields of a formal document. -/
def Reads (raw : Bytes) (root : Dict) : Prop :=
  py.loads raw = .value (.obj root) ∧ keysAre root formalKeys = true

/-- No check meets a value it cannot take: the decoder raises only its two decode errors, the states
that are reached can be hashed, and the date that is reached has a form in UTC. -/
structure Tame (raw : Bytes) : Prop where
  decoder : ∀ e, py.loads raw = .raised e → IsRejected e
  gateway : ∀ root, Reads py raw root → Header root → Hashable (get root (lit "gatewayStatus"))
  imports : ∀ root, Reads py raw root → Header root →
    OneOf (gatewayStates.map Prod.fst) (get root (lit "gatewayStatus")) →
    Hashable (get root (lit "importStatus"))
  dated : ∀ root, Reads py raw root → Header root →
    OneOf (gatewayStates.map Prod.fst) (get root (lit "gatewayStatus")) →
    OneOf (importStates.map Prod.fst) (get root (lit "importStatus")) →
    ∀ t, Dated py (get root (lit "checkedAt")) t → inRange t = true
  fresh : ∀ root, Reads py raw root → Header root →
    OneOf (gatewayStates.map Prod.fst) (get root (lit "gatewayStatus")) →
    OneOf (importStates.map Prod.fst) (get root (lit "importStatus")) →
    (∃ t, Dated py (get root (lit "checkedAt")) t) →
    (∃ t a l u, Counts (get root (lit "accountCounts")) t a l u) →
    ∀ freshness, get root (lit "freshness") = .obj freshness →
      keysAre freshness freshnessKeys = true → Hashable (get freshness (lit "state"))

theorem only_loadFormal {raw : Bytes} : Only IsRejected (loadFormal py raw) ↔
    ∀ e, py.loads raw = .raised e → IsRejected e := by
  unfold loadFormal
  rcases py.loads raw with v | _ | _ | e
  · exact iff_of_true (only_ok v) fun e h => by cases h
  · exact iff_of_true (only_error.mpr (isRejected _)) fun e h => by cases h
  · exact iff_of_true (only_error.mpr (isRejected _)) fun e h => by cases h
  · rw [only_error]
    constructor
    · intro h e' he'; cases he'; exact h
    · intro h; exact h e rfl

/-- **When the parser returns or rejects and does nothing else.** -/
theorem parseFormalHealth_only_iff (raw : Bytes) :
    ((∃ root, parseFormalHealth py raw = .ok root) ∨
      ∃ message, parseFormalHealth py raw = .error (.rejected message)) ↔ Tame py raw := by
  have honly : ((∃ root, parseFormalHealth py raw = .ok root) ∨
      ∃ message, parseFormalHealth py raw = .error (.rejected message)) ↔
      Only IsRejected (parseFormalHealth py raw) := by
    rw [only_iff]
    refine or_congr Iff.rfl ?_
    constructor
    · rintro ⟨message, h⟩; exact ⟨_, h, message, rfl⟩
    · rintro ⟨e, h, message, rfl⟩; exact ⟨message, h⟩
  rw [honly]
  unfold parseFormalHealth
  constructor
  · intro h
    have hroot := fun root (hr : Reads py raw root) =>
      (only_bind.mp ((only_bind.mp h).2 _ ((loadFormal_ok py).mpr hr.1))).2 root
        (exactKeys_ok.mpr ⟨rfl, hr.2⟩)
    have hgateway := fun root (hr : Reads py raw root) (hh : Header root) =>
      only_bind.mp ((only_bind.mp (hroot root hr)).2 () (parseHeader_ok.mpr hh))
    have himports := fun root (hr : Reads py raw root) (hh : Header root) g
        (hg : get root (lit "gatewayStatus") = .str g ∧ g ∈ gatewayStates.map Prod.fst) =>
      only_bind.mp ((hgateway root hr hh).2 g (requireMember_ok.mpr hg))
    have hdated := fun root (hr : Reads py raw root) (hh : Header root) g
        (hg : get root (lit "gatewayStatus") = .str g ∧ g ∈ gatewayStates.map Prod.fst) i
        (hi : get root (lit "importStatus") = .str i ∧ i ∈ importStates.map Prod.fst) =>
      only_bind.mp ((himports root hr hh g hg).2 i (requireMember_ok.mpr hi))
    refine ⟨(only_loadFormal py).mp (only_bind.mp h).1, ?_, ?_, ?_, ?_⟩
    · intro root hr hh
      exact only_requireMember.mp (hgateway root hr hh).1
    · rintro root hr hh ⟨g, hgm, hg⟩
      exact only_requireMember.mp (himports root hr hh g ⟨hg, hgm⟩).1
    · rintro root hr hh ⟨g, hgm, hg⟩ ⟨i, him, hi⟩
      exact (only_timestamp py).mp (hdated root hr hh g ⟨hg, hgm⟩ i ⟨hi, him⟩).1
    · rintro root hr hh ⟨g, hgm, hg⟩ ⟨i, him, hi⟩ ⟨t, ht⟩ hc
      obtain ⟨hcalendar, hrest⟩ := hdated root hr hh g ⟨hg, hgm⟩ i ⟨hi, him⟩
      have hin := (only_timestamp py).mp hcalendar t ht
      have hcounts := hrest t ((timestamp_ok py).mpr ⟨ht, hin⟩)
      have hfresh := (only_bind.mp hcounts).2 () (parseCounts_ok.mpr hc)
      exact only_parseFreshness.mp (only_bind.mp hfresh).1
  · intro h
    refine (only_bind_of ((only_loadFormal py).mpr h.decoder)).mpr fun document hl => ?_
    refine (only_bind_of only_exactKeys).mpr fun root hroot => ?_
    obtain ⟨rfl, hk⟩ := exactKeys_ok.mp hroot
    have hr : Reads py raw root := ⟨(loadFormal_ok py).mp hl, hk⟩
    refine (only_bind_of only_parseHeader).mpr fun _ hheader => ?_
    have hh := parseHeader_ok.mp hheader
    refine (only_bind_of (only_requireMember.mpr (h.gateway root hr hh))).mpr fun g hgm => ?_
    have hg : OneOf (gatewayStates.map Prod.fst) (get root (lit "gatewayStatus")) :=
      ⟨g, (requireMember_ok.mp hgm).2, (requireMember_ok.mp hgm).1⟩
    refine (only_bind_of (only_requireMember.mpr (h.imports root hr hh hg))).mpr fun i him => ?_
    have hi : OneOf (importStates.map Prod.fst) (get root (lit "importStatus")) :=
      ⟨i, (requireMember_ok.mp him).2, (requireMember_ok.mp him).1⟩
    refine (only_bind_of ((only_timestamp py).mpr (h.dated root hr hh hg hi))).mpr fun t ht => ?_
    refine (only_bind_of only_parseCounts).mpr fun _ hc => ?_
    have hfresh := h.fresh root hr hh hg hi ⟨t, ((timestamp_ok py).mp ht).1⟩ (parseCounts_ok.mp hc)
    refine (only_bind_of (only_parseFreshness.mpr hfresh)).mpr fun _ _ => ?_
    exact only_pure root

/-! ### A state that is a list -/

/-- `MAX_HEALTH_BYTES` -/
def maxHealthBytes : ℕ := 64 * 1024

/-- A health document whose gateway status is a list. -/
def listedStatus : Dict :=
  set (healthDocument [] (lit "ready") zeros (lit "2026-01-01T00:00:00Z") (lit "fresh") 0)
    (lit "gatewayStatus") (.arr [])

/-- Its text. -/
def listedRaw : Bytes := utf8 (dumps onePy true (.obj listedStatus))

/-- **The parser raises `TypeError` on a state that is a list.** -/
theorem listed_status_raises : listedRaw.length ≤ maxHealthBytes ∧
    let outcome := parseFormalHealth (tablePy [] [(listedRaw, .obj listedStatus)] []) listedRaw
    ¬((∃ root, outcome = .ok root) ∨ ∃ message, outcome = .error (.rejected message)) := by
  refine ⟨by decide +kernel, ?_⟩
  have hraise : parseFormalHealth (tablePy [] [(listedRaw, .obj listedStatus)] []) listedRaw =
      .error .unhashable := by decide +kernel
  intro outcome
  rw [show outcome = .error .unhashable from hraise]
  rintro (⟨_, h⟩ | ⟨_, h⟩) <;> cases h

end Cloudx.Cloud.HealthBridge
