import Cloudx.Python.Dump

/-! # Receipts and triggers

The gateway leaves small JSON documents for the maintenance: a receipt for a credential that failed
at run time and a trigger for a sweep. The cloud and the local package read them with near-copies of
the same functions, which are stated here once; a receipt's time is parsed in two ways.

The documents come from outside, so what matters is which contents make a reader raise: those on
which the JSON decoder raises something else than a decode error, and those whose time has no UTC
form. -/

namespace Cloudx.Shared.Receipt

open Cloudx.Python.Text Cloudx.Python.Value Cloudx.Python.Dump

/-- `FAILURE_RECEIPT_SCHEMA`, `FAILURE_SCHEMA` -/
def failureSchema : Str := lit "cloudx.cpa-auth-failure.v1"

/-- `TRIGGER_SCHEMA`, `SCHEMA` -/
def triggerSchema : Str := lit "cloudx.cpa-sweep-trigger.v1"

/-- `MAX_FAILURE_RECEIPT_BYTES`, `MAX_RECEIPT_BYTES`, `MAX_DOCUMENT_BYTES`, `MAX_BYTES` -/
def maxDocumentBytes : ℕ := 16 * 1024

/-- `MAX_FAILURE_RECEIPT_AGE_SECONDS`, `MAX_TRIGGER_AGE_SECONDS` and their copies -/
def maxAgeSeconds : ℚ := 30 * 60

/-- `MAX_FAILURE_RECEIPT_FUTURE_SKEW_SECONDS`, `MAX_FUTURE_SKEW_SECONDS` -/
def maxFutureSkewSeconds : ℚ := 5 * 60

/-- `PERMANENT_RUNTIME_FAILURES`, `PERMANENT_FAILURE_REASONS` -/
def permanentFailures : List Str :=
  [lit "account_deactivated", lit "authentication_unauthorized", lit "missing_token",
    lit "refresh_invalid_grant", lit "refresh_token_reused", lit "refresh_token_revoked"]

/-- What a path holds when it is opened: nothing, something that is no readable regular file, or a
file. -/
inductive Entry where
  | absent
  | refused
  | file (f : File)
deriving DecidableEq

/-- The bytes and the object of a file of at most `maxDocumentBytes` bytes. Only the two decode
errors are caught. -/
def document : Entry → Except PyError (Option (Bytes × Dict))
  | .file f =>
    if maxDocumentBytes < f.bytes.length then .ok none
    else match f.content with
      | .raised e => .error e
      | .value (.obj d) => .ok (some (f.bytes, d))
      | _ => .ok none
  | _ => .ok none

/-- `age < -MAX_FUTURE_SKEW_SECONDS or age > MAX_AGE_SECONDS` -/
def outdated (now observed : ℚ) : Bool :=
  now - observed < -maxFutureSkewSeconds || maxAgeSeconds < now - observed

/-! ### Receipts -/

/-- What a receipt names. -/
structure Failure where
  authFile : Str
  digest : Str
  reason : Str
deriving DecidableEq

/-- `SHA256_RE.fullmatch(digest)` -/
def isSha256 (digest : Str) : Bool :=
  digest.length = 64 && digest.all fun c => (97 ≤ c && c ≤ 102) || (48 ≤ c && c ≤ 57)

/-- An `int` that is no `bool` and counts at least one failure. -/
def confirmed : Json → Bool
  | .int n => 1 ≤ n
  | _ => false

/-- The checks of a receipt, apart from its time. -/
def receiptFields (py : Py) (d : Dict) : Option Failure :=
  let authFile := py.str (pyOrs [get d (lit "authFile")])
  let digest := py.str (pyOrs [get d (lit "authSha256")])
  let reason := py.str (pyOrs [get d (lit "reason")])
  if get d (lit "schema") = .str failureSchema ∧ pathName authFile = authFile ∧
      endsWith authFile (lit ".json") ∧ isSha256 digest ∧ reason ∈ permanentFailures ∧
      get d (lit "permanentAuthFailure") = .bool true ∧ get d (lit "weeklyQuota") = .bool false ∧
      confirmed (get d (lit "failureCount")) then
    some ⟨authFile, digest, reason⟩
  else none

/-- `_failure_receipt`, `_receipt`, with the parser of its time. -/
def receipt (py : Py) (parse : Json → Option ℚ) (now : ℚ) (entry : Entry) :
    Except PyError (Option Failure) := do
  match ← document entry with
  | none => return none
  | some (_, d) =>
    match receiptFields py d, parse (get d (lit "observedAt")) with
    | some found, some observed => do
      let time ← astimezone observed
      return if outdated now time then none else some found
    | _, _ => return none

/-! ### Triggers -/

/-- `_time` of the sweeps: a text with a zone. -/
def time (py : Py) : Json → Option ℚ
  | .str value =>
    let text := isoText (strip value)
    if strip value = [] then none
    else (py.fromisoformat text).filter fun _ => py.hasZone text
  | _ => none

/-- `set(d) == keys` -/
def keysAre (d : Dict) (keys : List Str) : Bool :=
  (d.all fun kv => kv.1 ∈ keys) && keys.all fun key => has d key

/-- `SweepTrigger`, `Trigger` -/
structure Trigger where
  digest : Str
  observedAt : ℚ
deriving DecidableEq

/-- The status next to a trigger. -/
inductive TriggerStatus where
  | absent
  | rejected
  | stale
  | accepted
deriving DecidableEq

/-- The checks of a trigger, apart from its time. -/
def triggerFields (d : Dict) : Bool :=
  keysAre d [lit "schema", lit "reason", lit "observedAt"] &&
    get d (lit "schema") = .str triggerSchema && get d (lit "reason") = .str (lit "auth_unavailable")

/-- `load_trigger`, `load` -/
def loadTrigger (py : Py) (now : ℚ) (entry : Entry) :
    Except PyError (Option Trigger × TriggerStatus) :=
  if entry = .absent then .ok (none, .absent)
  else do
    match ← document entry with
    | none => return (none, .rejected)
    | some (raw, d) =>
      match if triggerFields d then time py (get d (lit "observedAt")) else none with
      | none => return (none, .rejected)
      | some observed => do
        let instant ← astimezone observed
        return if outdated now instant then (none, .stale)
          else (some ⟨py.sha256 raw, observed⟩, .accepted)

/-! ### When a reader returns -/

/-- A call that returns a value. -/
def Returns {α : Type} (x : Except PyError α) : Prop := ∃ v, x = .ok v

/-- On a file that is read, the JSON decoder raises at most a decode error. -/
def Decodes : Entry → Prop
  | .file f => f.bytes.length ≤ maxDocumentBytes → ∀ e, f.content ≠ .raised e
  | _ => True

/-- The object of a file that is read. -/
def objectOf : Entry → Option Dict
  | .file f =>
    if maxDocumentBytes < f.bytes.length then none
    else match f.content with
      | .value (.obj d) => some d
      | _ => none
  | _ => none

theorem returns_ok {α : Type} (v : α) : Returns (.ok v) := ⟨v, rfl⟩

theorem not_returns_error {α : Type} (e : PyError) : ¬ Returns (.error e : Except PyError α) := by
  rintro ⟨v, hv⟩
  exact absurd hv (by simp)

theorem returns_astimezone {α : Type} (t : ℚ) (f : ℚ → α) :
    Returns (do let time ← astimezone t; return f time) ↔ inRange t := by
  unfold astimezone
  split_ifs with h
  · exact iff_of_true (returns_ok _) h
  · exact iff_of_false (not_returns_error _) h

/-- What reading a document comes to: nothing, an object, or an exception of the decoder. -/
theorem document_cases (entry : Entry) :
    (Decodes entry ∧ document entry = .ok none ∧ objectOf entry = none) ∨
    (Decodes entry ∧ ∃ raw d, document entry = .ok (some (raw, d)) ∧ objectOf entry = some d) ∨
    (¬ Decodes entry ∧ ∃ e, document entry = .error e) := by
  cases entry with
  | absent => exact .inl ⟨trivial, rfl, rfl⟩
  | refused => exact .inl ⟨trivial, rfl, rfl⟩
  | file f =>
    simp only [Decodes, document, objectOf]
    by_cases hlong : maxDocumentBytes < f.bytes.length
    · rw [if_pos hlong, if_pos hlong]
      exact .inl ⟨fun h => absurd h (by omega), rfl, rfl⟩
    · rw [if_neg hlong, if_neg hlong]
      cases hc : f.content with
      | raised e => exact .inr (.inr ⟨fun h => h (by omega) e rfl, e, rfl⟩)
      | jsonError => exact .inl ⟨by simp, rfl, rfl⟩
      | unicodeError => exact .inl ⟨by simp, rfl, rfl⟩
      | value v =>
        cases v with
        | obj d => exact .inr (.inl ⟨by simp, f.bytes, d, rfl, rfl⟩)
        | null => exact .inl ⟨by simp, rfl, rfl⟩
        | bool b => exact .inl ⟨by simp, rfl, rfl⟩
        | int n => exact .inl ⟨by simp, rfl, rfl⟩
        | float x => exact .inl ⟨by simp, rfl, rfl⟩
        | str s => exact .inl ⟨by simp, rfl, rfl⟩
        | arr items => exact .inl ⟨by simp, rfl, rfl⟩

/-- A reader that goes on with the object of a document returns if the decoder does and the rest
does. -/
theorem returns_document {α : Type} (entry : Entry) (v : α)
    (next : Bytes → Dict → Except PyError α) {good : Dict → Prop}
    (hnext : ∀ raw d, Returns (next raw d) ↔ good d) :
    Returns (do
      match ← document entry with
      | none => return v
      | some (raw, d) => next raw d) ↔
    Decodes entry ∧ ∀ d, objectOf entry = some d → good d := by
  rcases document_cases entry with ⟨hd, hdoc, hobj⟩ | ⟨hd, raw, d, hdoc, hobj⟩ | ⟨hd, e, hdoc⟩
  · rw [hdoc, hobj]
    exact iff_of_true (returns_ok v) ⟨hd, fun _ h => absurd h (by simp)⟩
  · rw [hdoc, hobj]
    refine (hnext raw d).trans ⟨fun h => ⟨hd, fun d' h' => Option.some.inj h' ▸ h⟩, fun h => h.2 d rfl⟩
  · rw [hdoc]
    exact iff_of_false (not_returns_error e) fun h => hd h.1

/-- The time of a document has a UTC form, if the document passes the other checks. -/
def TimeInRange (checks : Bool) (parsed : Option ℚ) : Prop :=
  checks = true → ∀ t, parsed = some t → inRange t = true

/-- **When reading a receipt returns.** -/
theorem receipt_returns (py : Py) (parse : Json → Option ℚ) (now : ℚ) (entry : Entry) :
    Returns (receipt py parse now entry) ↔
      Decodes entry ∧ ∀ d, objectOf entry = some d →
        TimeInRange (receiptFields py d).isSome (parse (get d (lit "observedAt"))) := by
  refine returns_document entry none _ fun _ d => ?_
  unfold TimeInRange
  rcases receiptFields py d with _ | found
  · exact iff_of_true (returns_ok none) (by simp)
  rcases parse (get d (lit "observedAt")) with _ | observed
  · exact iff_of_true (returns_ok none) (by simp)
  · refine (returns_astimezone observed _).trans ⟨fun h _ t ht => Option.some.inj ht ▸ h, fun h => ?_⟩
    exact h rfl observed rfl

/-- **When loading a trigger returns.** -/
theorem loadTrigger_returns (py : Py) (now : ℚ) (entry : Entry) :
    Returns (loadTrigger py now entry) ↔
      Decodes entry ∧ ∀ d, objectOf entry = some d →
        TimeInRange (triggerFields d) (time py (get d (lit "observedAt"))) := by
  unfold loadTrigger
  by_cases habs : entry = .absent
  · rw [if_pos habs, habs]
    exact iff_of_true (returns_ok _) ⟨trivial, fun _ h => absurd h (by simp [objectOf])⟩
  rw [if_neg habs]
  refine returns_document entry _ _ fun raw d => ?_
  unfold TimeInRange
  by_cases hf : triggerFields d = true
  · simp only [if_pos hf]
    rcases time py (get d (lit "observedAt")) with _ | observed
    · exact iff_of_true (returns_ok _) (by simp)
    · refine (returns_astimezone observed _).trans ⟨fun h _ t ht => Option.some.inj ht ▸ h, fun h => ?_⟩
      exact h hf observed rfl
  · simp only [if_neg hf]
    exact iff_of_true (returns_ok _) fun h => absurd h hf

end Cloudx.Shared.Receipt
