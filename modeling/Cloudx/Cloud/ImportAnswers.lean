import Cloudx.Cloud.ImportRecords
import Cloudx.Lib.Checks

/-! # When the cloud import answers

An import returns its result, or raises `ImportRejected`, which the command line turns into a result;
any other exception passes through both. Without file errors there are four places where one can come
from: a JSON decoder that gives up, an expiry that is no date, a fingerprint with a lone surrogate and
a refresh form with one. `Safe` says that none of them is met before the import is rejected
(`answers_iff`). -/

namespace Cloudx.Cloud.ImportAnswers

open Cloudx.Lib.Memo Cloudx.Lib.Store Cloudx.Lib.Rollback Cloudx.Lib.Fault Cloudx.Lib.Checks
open Cloudx.Python.Text Cloudx.Python.Value Cloudx.Python.Dump Cloudx.Python.Decode
open Cloudx.Shared Cloudx.Shared.Credential Cloudx.Shared.Source
open Cloudx.Cloud Cloudx.Cloud.Importer Cloudx.Cloud.ImportRecords

/-- `ImportRejected` -/
def Rejection : PyError → Prop
  | .refused _ _ => True
  | _ => False

/-- The computation returns or raises `ImportRejected`. -/
def Answers {α : Type} (x : Except PyError α) : Prop := Only Rejection x

theorem answers_ok {α : Type} (a : α) : Answers (.ok a) := only_ok a

theorem answers_error {α : Type} {e : PyError} :
    Answers (.error e : Except PyError α) ↔ Rejection e := only_error

theorem answers_rejected {α : Type} (code message : String) :
    Answers (.error (rejected code message) : Except PyError α) := answers_error.mpr trivial

theorem answers_seq {α β : Type} {x : Except PyError α} {f : α → Except PyError β} :
    Answers (x >>= f) ↔ Answers x ∧ ∀ a, x = .ok a → Answers (f a) := only_bind

/-! ### What the command line makes of it -/

/-- `ImportResult.as_dict` -/
def resultDocument (requestId requestHash status : Str) (dryRun : Bool) (counts : Counts)
    (errors : List Json) : Json :=
  .obj [(lit "schema", .str (lit "cloudx.import.v1")), (lit "requestId", .str requestId),
    (lit "requestHash", .str requestHash), (lit "status", .str status), (lit "dryRun", .bool dryRun),
    (lit "written", .int counts.written), (lit "skipped", .int counts.skipped),
    (lit "errors", .arr errors)]

/-- `{"code": exc.code, "message": exc.safe_message}` -/
def errorOf (code : String) (message : Str) : Json :=
  .obj [(lit "code", .str (lit code)), (lit "message", .str message)]

/-- `MAX_SOURCE_BYTES` -/
def maxSourceBytes : ℕ := 16 * 1024 * 1024

/-- `read_limited` -/
def readLimited (raw : Bytes) : Except PyError Bytes :=
  if maxSourceBytes < raw.length then
    .error (rejected "source_too_large" "import source exceeds 16 MiB")
  else if raw = [] then .error (rejected "source_empty" "import source is empty")
  else .ok raw

section Command
variable {σ : Type} (py : Py) (fails : Step → Bool) (force : Bool) (dec : Decoder) (ask : Endpoint σ)
  (capability : Option Str) (dry : Bool)

/-- The command `import`: the document it emits, what the endpoint has become, and the auth directory. -/
def importCommand (raw : Bytes) (s : σ) (auth : AuthDir) : Except PyError Json × σ × AuthDir :=
  match readLimited raw with
  | .error (.refused code message) =>
    (.ok (resultDocument (lit "unavailable") (List.replicate 64 48) (lit "rejected") dry ⟨0, 0⟩
      [errorOf code message]), s, auth)
  | .error e => (.error e, s, auth)
  | .ok raw =>
    let r := importRecords py fails force dec ask capability dry raw s auth
    (match r.1 with
      | .ok result => .ok (resultDocument result.requestId result.requestHash result.status
          result.dryRun result.counts [])
      | .error (.refused code message) =>
        .ok (resultDocument ((py.sha256 raw).take 16) (py.sha256 raw) (lit "rejected") dry ⟨0, 0⟩
          [errorOf code message])
      | .error e => .error e, r.2)

end Command

/-! ### Nothing goes wrong -/

section Safe
variable (py : Py) (dec : Decoder)

/-- The JSON values from `index` on are decoded, or rejected. -/
def SafeScan (text : Str) : ℕ → ℕ → Prop
  | 0, _ => True
  | fuel + 1, index => ∀ start, findFrom text 123 index = some start →
    (∀ e, dec.rawDecode text start = .raised e → Rejection e) ∧
      ∀ v stop, dec.rawDecode text start = .value v stop → SafeScan text fuel stop

/-- The documents of a text are decoded, or rejected. -/
def SafeDocuments (text : Str) : Prop :=
  strip text ≠ [] → (∀ e, dec.loads (strip text) = .raised e → Rejection e) ∧
    ((∀ v, dec.loads (strip text) ≠ .value v) → (∀ e, dec.loads (strip text) ≠ .raised e) →
      SafeScan dec text (text.length + 1) 0)

/-- What `_iso_epoch` can convert. -/
def Dated (value : Json) : Prop := ∃ text, isoEpoch py value = .ok text

/-- An expiry that is needed can be converted. -/
def SafeExpiry (source accessClaims idClaims : Dict) : Prop :=
  truthy (pyOrs [get source (lit "expired"), get source (lit "expiry"),
      get source (lit "auth_expires_at"), get source (lit "expires_at")]) = false →
    Dated py (get accessClaims (lit "exp")) ∧
      (isoEpoch py (get accessClaims (lit "exp")) = .ok [] → Dated py (get idClaims (lit "exp")))

/-- The payloads of the tokens of an entry are decoded, and a needed expiry can be converted. -/
def SafeEntry (entry : Dict) : Prop :=
  AgentIdentity.isAgentIdentity py (sourceOf entry) = false →
    (authTokens py (sourceOf entry)).any = true →
      ∃ accessClaims idClaims,
        decodeJwtPayload py (authTokens py (sourceOf entry)).access = .ok accessClaims ∧
        decodeJwtPayload py (authTokens py (sourceOf entry)).id = .ok idClaims ∧
        (authType py entry (sourceOf entry) = lit "codex" →
          SafeExpiry py (sourceOf entry) accessClaims idClaims)

/-- The entries up to the first that is rejected are safe. -/
def SafeEntries : List Dict → Prop
  | [] => True
  | entry :: rest => SafeEntry py entry ∧ ∀ record, flatten py entry = .ok record → SafeEntries rest

variable {σ : Type} (ask : Endpoint σ)

/-- The form of a card can be encoded, and the entry of the answer is safe. -/
def SafeCard (card : Card) (s : σ) : Prop :=
  (encodable card.client && encodable card.refresh) = true ∧
    ∀ payload, (ask ⟨card.client, card.refresh⟩ s).1 = some (.obj payload) →
      SafeEntry py (cardEntry card payload)

/-- The lines up to the first that is rejected are safe. -/
def SafeLines : List Str → σ → Prop
  | [], _ => True
  | line :: rest, s =>
    (cardOf line = .ok none → SafeLines rest s) ∧
      ∀ card, cardOf line = .ok (some card) → SafeCard py ask card s ∧
        ∀ record s', refreshCard py ask card s = (.ok record, s') → SafeLines rest s'

/-- The files of an envelope up to the first that is rejected are safe. -/
def SafeFiles (normal : Str → Act σ PyError (List Dict)) (safe : Str → σ → Prop) :
    List Json → σ → Prop
  | [], _ => True
  | item :: rest, s => ∀ content, contentOf item = some content → safe content s ∧
    ∀ records s', normal content s = (.ok records, s') → SafeFiles normal safe rest s'

/-- The records of some documents are found, or rejected. -/
def SafeFound (normal : Str → Act σ PyError (List Dict)) (safe : Str → σ → Prop)
    (documents : List Json) (s : σ) : Prop :=
  match envelopeFiles documents with
  | some (.arr files) => SafeFiles normal safe files s
  | some _ => True
  | none => SafeEntries py (documents.flatMap expand)

/-- A text is normalised, or rejected. -/
def SafeText : ℕ → Str → σ → Prop
  | 0, _, _ => False
  | fuel + 1, text, s => SafeDocuments dec text ∧
    ∀ documents, jsonDocuments dec text = .ok documents →
      SafeFound py (normalizeText py dec ask fuel) (SafeText fuel) documents s ∧
        ∀ s', documentRecords py (normalizeText py dec ask fuel) documents s = (.ok [], s') →
          SafeLines py ask (splitlines false text) s'

/-- A source is imported, or rejected: its text is safe, and its records have fingerprints. -/
def Safe (raw : Bytes) (s : σ) : Prop :=
  ∀ text, decodeSource raw = .ok text → SafeText py dec ask (text.length + 1) text s ∧
    ∀ records s', normalizeText py dec ask (text.length + 1) text s = (.ok records, s') →
      ∀ record ∈ records, encodable ([0].intercalate (fingerprintParts py record)) = true

end Safe

/-! ### One step after the other -/

variable {py : Py} {dec : Decoder} {σ : Type} {ask : Endpoint σ}

/-- **An action answers when its parts do.** -/
theorem answers_bind {α β : Type} {x : Act σ PyError α} {f : α → Act σ PyError β} {s : σ} :
    Answers ((x >>= f) s).1 ↔
      Answers (x s).1 ∧ ∀ a s', x s = (.ok a, s') → Answers (f a s').1 := by
  rw [Act.bind_run]
  rcases x s with ⟨e | a, s'⟩
  · constructor
    · intro h
      exact ⟨answers_error.mpr (answers_error.mp h), fun _ _ heq => absurd (Prod.mk.inj heq).1 (by simp)⟩
    · exact fun h => answers_error.mpr (answers_error.mp h.1)
  · constructor
    · refine fun h => ⟨answers_ok a, fun b t heq => ?_⟩
      obtain ⟨hb, ht⟩ := Prod.mk.inj heq
      rw [← Except.ok.inj hb, ← ht]
      exact h
    · exact fun h => h.2 a s' rfl

/-- What comes after a computation without the endpoint. -/
theorem answers_pureStep {α β : Type} {x : Except PyError α} {f : α → Act σ PyError β} {s : σ} :
    Answers ((pureStep x >>= f) s).1 ↔ Answers x ∧ ∀ a, x = .ok a → Answers (f a s).1 := by
  rw [answers_bind]
  refine and_congr_right fun _ => ⟨fun h a ha => h a s (pureStep_ok ha s), fun h a s' ha => ?_⟩
  obtain ⟨ha, hs⟩ := Prod.mk.inj ha
  rw [← hs]
  exact h a ha

/-! ### Texts and documents -/

theorem answers_decodeSource (raw : Bytes) : Answers (decodeSource raw) := by
  unfold decodeSource
  dsimp only
  split_ifs
  · exact answers_rejected _ _
  · rcases decodeUtf8Sig raw with _ | text
    · rcases decodeUtf16 raw with _ | text
      · exact answers_rejected _ _
      · exact answers_ok _
    · exact answers_ok _

theorem answers_valuesFrom {text : Str} {invalid : ℕ → PyError} (hinvalid : ∀ n, Rejection (invalid n)) :
    ∀ fuel index, Answers (valuesFrom dec invalid text fuel index) ↔ SafeScan dec text fuel index
  | 0, _ => iff_of_true (answers_ok _) trivial
  | fuel + 1, index => by
    unfold valuesFrom SafeScan
    rcases findFrom text 123 index with _ | start
    · exact iff_of_true (answers_ok _) (by simp)
    have hone : (∀ start', some start = some start' →
        (∀ e, dec.rawDecode text start' = .raised e → Rejection e) ∧
          ∀ v stop, dec.rawDecode text start' = .value v stop → SafeScan dec text fuel stop) ↔
        (∀ e, dec.rawDecode text start = .raised e → Rejection e) ∧
          ∀ v stop, dec.rawDecode text start = .value v stop → SafeScan dec text fuel stop :=
      ⟨fun h => h start rfl, fun h start' heq => Option.some.inj heq ▸ h⟩
    rw [hone]
    dsimp only
    rcases dec.rawDecode text start with ⟨v, stop⟩ | pos | e
    · dsimp only
      rw [answers_seq, answers_valuesFrom hinvalid fuel stop]
      constructor
      · exact fun h => ⟨fun _ heq => absurd heq (by simp), fun v' stop' heq => by
          rw [← (RawDecoded.value.inj heq).2]
          exact h.1⟩
      · exact fun h => ⟨h.2 v stop rfl, fun _ _ => answers_ok _⟩
    · exact iff_of_true (answers_error.mpr (hinvalid pos))
        ⟨fun _ heq => absurd heq (by simp), fun _ _ heq => absurd heq (by simp)⟩
    · dsimp only
      rw [answers_error]
      constructor
      · exact fun h => ⟨fun e' heq => RawDecoded.raised.inj heq ▸ h, fun _ _ heq => absurd heq (by simp)⟩
      · exact fun h => h.1 e rfl

/-- **When the documents of a text are found or rejected.** -/
theorem answers_jsonDocuments (text : Str) :
    Answers (jsonDocuments dec text) ↔ SafeDocuments dec text := by
  have hscan : Answers (valuesFrom dec
      (fun _ => rejected "invalid_json" "import source contains invalid JSON") text
        (text.length + 1) 0) ↔ SafeScan dec text (text.length + 1) 0 := by
    refine answers_valuesFrom ?_ _ _
    exact fun _ => trivial
  unfold jsonDocuments SafeDocuments
  dsimp only
  by_cases hempty : strip text = []
  · rw [if_pos hempty]
    exact iff_of_true (answers_rejected _ _) fun h => absurd hempty h
  rw [if_neg hempty]
  have hrest : ∀ {p : Prop}, (strip text ≠ [] → p) ↔ p := ⟨fun h => h hempty, fun h _ => h⟩
  rw [hrest]
  rcases dec.loads (strip text) with v | _ | _ | e
  · exact iff_of_true (answers_ok _) ⟨fun _ heq => absurd heq (by simp), fun h => absurd rfl (h v)⟩
  · exact hscan.trans ⟨fun h => ⟨fun _ heq => absurd heq (by simp), fun _ _ => h⟩,
      fun h => h.2 (by simp) (by simp)⟩
  · exact hscan.trans ⟨fun h => ⟨fun _ heq => absurd heq (by simp), fun _ _ => h⟩,
      fun h => h.2 (by simp) (by simp)⟩
  · exact answers_error.trans ⟨fun h => ⟨fun e' heq => Loaded.raised.inj heq ▸ h,
      fun _ h' => absurd rfl (h' e)⟩, fun h => h.1 e rfl⟩

/-! ### Entries -/

/-- Where no error is a rejection, to answer is to return. -/
theorem answers_iff_ok {α : Type} {x : Except PyError α} (h : ∀ e, x = .error e → ¬ Rejection e) :
    Answers x ↔ ∃ a, x = .ok a := by
  rcases x with e | a
  · exact answers_error.trans (iff_of_false (h e rfl) (by simp))
  · exact iff_of_true (answers_ok a) ⟨a, rfl⟩

theorem answers_isoEpoch (value : Json) : Answers (isoEpoch py value) ↔ Dated py value := by
  refine answers_iff_ok fun e he => ?_
  have hoverflow : e = .overflow := by
    unfold isoEpoch at he
    dsimp only at he
    split at he
    · exact absurd he (by simp)
    · split at he
      · exact (Except.error.inj he).symm
      · exact absurd he (by simp)
  rw [hoverflow]
  exact id

theorem answers_decodeJwtPayload (token : Str) :
    Answers (decodeJwtPayload py token) ↔ ∃ claims, decodeJwtPayload py token = .ok claims := by
  refine answers_iff_ok fun e he => ?_
  have hrecursion : e = .recursion := by
    unfold decodeJwtPayload at he
    split_ifs at he
    split at he
    · exact absurd he (by simp)
    · exact (Except.error.inj he).symm
    · exact absurd he (by simp)
  rw [hrecursion]
  exact id

theorem answers_expiredOf (source accessClaims idClaims : Dict) :
    Answers (expiredOf py source accessClaims idClaims) ↔
      SafeExpiry py source accessClaims idClaims := by
  unfold expiredOf SafeExpiry
  dsimp only
  by_cases hcounts : truthy (pyOrs [get source (lit "expired"), get source (lit "expiry"),
      get source (lit "auth_expires_at"), get source (lit "expires_at")]) = true
  · rw [if_pos hcounts]
    exact iff_of_true (answers_ok _) fun h => absurd hcounts (by simp [h])
  rw [if_neg hcounts]
  have hrest : ∀ {p : Prop}, (truthy (pyOrs [get source (lit "expired"), get source (lit "expiry"),
      get source (lit "auth_expires_at"), get source (lit "expires_at")]) = false → p) ↔ p :=
    ⟨fun h => h (Bool.eq_false_iff.mpr hcounts), fun h _ => h⟩
  rw [hrest, answers_seq, answers_isoEpoch]
  refine and_congr_right fun _ => ⟨fun h hnone => ?_, fun h access haccess => ?_⟩
  · have hid := h [] hnone
    rw [if_neg (by simp), answers_seq, answers_isoEpoch] at hid
    exact hid.1
  · by_cases hempty : access = []
    · rw [hempty] at haccess
      rw [hempty, if_neg (by simp), answers_seq, answers_isoEpoch]
      exact ⟨h haccess, fun _ _ => answers_ok _⟩
    · rw [if_pos hempty]
      exact answers_ok _

/-- **When an entry is flattened or rejected.** -/
theorem answers_flatten (entry : Dict) : Answers (flatten py entry) ↔ SafeEntry py entry := by
  unfold flatten SafeEntry
  dsimp only
  by_cases hagent : AgentIdentity.isAgentIdentity py (sourceOf entry) = true
  · rw [if_pos hagent]
    refine iff_of_true ?_ fun h => absurd hagent (by simp [h])
    split
    · exact answers_ok _
    · exact answers_error.mpr trivial
  rw [if_neg hagent]
  by_cases hany : (authTokens py (sourceOf entry)).any = true
  swap
  · rw [if_pos (by simpa using hany)]
    exact iff_of_true (answers_rejected _ _) fun _ h => absurd h hany
  rw [if_neg (by simpa using hany)]
  have hrest : ∀ {p : Prop}, (AgentIdentity.isAgentIdentity py (sourceOf entry) = false →
      (authTokens py (sourceOf entry)).any = true → p) ↔ p :=
    ⟨fun h => h (Bool.eq_false_iff.mpr hagent) hany, fun h _ _ => h⟩
  rw [hrest, answers_seq, answers_decodeJwtPayload]
  have htail : ∀ accessClaims idClaims,
      Answers (if authType py entry (sourceOf entry) ≠ lit "codex" then
          .error (rejected "wrong_provider" "an import record is not a Codex credential")
        else do
          let expired ← expiredOf py (sourceOf entry) accessClaims idClaims
          return flatRecord py entry (sourceOf entry) (authTokens py (sourceOf entry)) accessClaims
            idClaims expired) ↔
        (authType py entry (sourceOf entry) = lit "codex" →
          SafeExpiry py (sourceOf entry) accessClaims idClaims) := by
    intro accessClaims idClaims
    by_cases htype : authType py entry (sourceOf entry) = lit "codex"
    · rw [if_neg (by simpa using htype), answers_seq, answers_expiredOf]
      exact ⟨fun h _ => h.1, fun h => ⟨h htype, fun _ _ => answers_ok _⟩⟩
    · rw [if_pos htype]
      exact iff_of_true (answers_rejected _ _) fun h => absurd h htype
  constructor
  · rintro ⟨⟨accessClaims, haccess⟩, hnext⟩
    have hid := hnext accessClaims haccess
    rw [answers_seq, answers_decodeJwtPayload] at hid
    obtain ⟨⟨idClaims, hid⟩, hlast⟩ := hid
    exact ⟨accessClaims, idClaims, haccess, hid, (htail _ _).mp (hlast idClaims hid)⟩
  · rintro ⟨accessClaims, idClaims, haccess, hid, hexpiry⟩
    refine ⟨⟨accessClaims, haccess⟩, fun claims hclaims => ?_⟩
    rw [← Except.ok.inj (haccess.symm.trans hclaims), answers_seq, answers_decodeJwtPayload]
    refine ⟨⟨idClaims, hid⟩, fun claims' hclaims' => ?_⟩
    rw [← Except.ok.inj (hid.symm.trans hclaims')]
    exact (htail _ _).mpr hexpiry

theorem answers_flattenAll : ∀ entries : List Dict,
    Answers (flattenAll py entries) ↔ SafeEntries py entries
  | [] => iff_of_true (answers_ok _) trivial
  | entry :: rest => by
    unfold flattenAll SafeEntries
    rw [answers_seq, answers_flatten]
    refine and_congr_right fun _ => forall_congr' fun record => forall_congr' fun _ => ?_
    rw [answers_seq, answers_flattenAll rest]
    exact ⟨And.left, fun h => ⟨h, fun _ _ => answers_ok _⟩⟩

/-! ### Cards -/

theorem answers_cardOf (line : Str) : Answers (cardOf line) := by
  unfold cardOf
  dsimp only
  split_ifs
  · exact answers_ok _
  · split
    · split_ifs
      · exact answers_ok _
      · exact answers_rejected _ _
    · exact answers_rejected _ _

/-- **When a card is refreshed or rejected.** -/
theorem answers_refreshCard (card : Card) (s : σ) :
    Answers (refreshCard py ask card s).1 ↔ SafeCard py ask card s := by
  unfold refreshCard SafeCard
  by_cases hencodable : (encodable card.client && encodable card.refresh) = true
  swap
  · rw [if_pos (by rw [Bool.eq_false_iff.mpr hencodable]; rfl)]
    exact answers_error.trans (iff_of_false id fun h => hencodable h.1)
  rw [if_neg (by rw [hencodable]; simp), and_iff_right hencodable]
  dsimp only
  rcases ask ⟨card.client, card.refresh⟩ s with ⟨answer, s'⟩
  have hrefused : Answers (.error (rejected "refresh_failed"
      "a raw card credential could not be refreshed") : Except PyError Dict) := answers_rejected _ _
  rcases answer with _ | v
  · exact iff_of_true hrefused fun _ h => absurd h (by simp)
  · cases v with
    | obj payload =>
      exact (answers_flatten _).trans ⟨fun h p hp => Json.obj.inj (Option.some.inj hp) ▸ h,
        fun h => h payload rfl⟩
    | _ => exact iff_of_true hrefused fun _ h => absurd h (by simp)

theorem answers_refreshLines : ∀ (lines : List Str) (s : σ),
    Answers (refreshLines py ask lines s).1 ↔ SafeLines py ask lines s
  | [], _ => iff_of_true (answers_ok _) trivial
  | line :: rest, s => by
    unfold refreshLines SafeLines
    rw [answers_pureStep, and_iff_right (answers_cardOf line)]
    have hcard : ∀ card, Answers ((do
        let record ← refreshCard py ask card
        let more ← refreshLines py ask rest
        return record :: more : Act σ PyError (List Dict)) s).1 ↔
          SafeCard py ask card s ∧ ∀ record s', refreshCard py ask card s = (.ok record, s') →
            SafeLines py ask rest s' := by
      intro card
      rw [answers_bind, answers_refreshCard]
      refine and_congr_right fun _ => forall_congr' fun record => forall_congr' fun s' =>
        forall_congr' fun _ => ?_
      rw [answers_bind, answers_refreshLines rest]
      exact ⟨And.left, fun h => ⟨h, fun _ _ _ => answers_ok _⟩⟩
    constructor
    · exact fun h => ⟨fun hnone => (answers_refreshLines rest s).mp (h none hnone),
        fun card hsome => (hcard card).mp (h (some card) hsome)⟩
    · rintro ⟨hnone, hsome⟩ (_ | card) hline
      · exact (answers_refreshLines rest s).mpr (hnone hline)
      · exact (hcard card).mpr (hsome card hline)

/-! ### Texts -/

theorem answers_envelopeRecords {normal : Str → Act σ PyError (List Dict)} {safe : Str → σ → Prop}
    (hsafe : ∀ text s, Answers (normal text s).1 ↔ safe text s) : ∀ (items : List Json) (s : σ),
      Answers (envelopeRecords normal items s).1 ↔ SafeFiles normal safe items s
  | [], _ => iff_of_true (answers_ok _) trivial
  | item :: rest, s => by
    unfold envelopeRecords SafeFiles
    rcases contentOf item with _ | content
    · exact iff_of_true (answers_rejected _ _) fun _ h => absurd h (by simp)
    have hone : ∀ {p : Str → Prop}, (∀ c, some content = some c → p c) ↔ p content :=
      ⟨fun h => h content rfl, fun h c hc => Option.some.inj hc ▸ h⟩
    rw [hone]
    dsimp only
    rw [answers_bind, hsafe]
    refine and_congr_right fun _ => forall_congr' fun records => forall_congr' fun s' =>
      forall_congr' fun _ => ?_
    rw [answers_bind, answers_envelopeRecords hsafe rest]
    exact ⟨And.left, fun h => ⟨h, fun _ _ _ => answers_ok _⟩⟩

theorem answers_documentRecords {normal : Str → Act σ PyError (List Dict)} {safe : Str → σ → Prop}
    (hsafe : ∀ text s, Answers (normal text s).1 ↔ safe text s) (documents : List Json) (s : σ) :
    Answers (documentRecords py normal documents s).1 ↔ SafeFound py normal safe documents s := by
  unfold documentRecords SafeFound
  rcases envelopeFiles documents with _ | files
  · exact answers_flattenAll _
  · cases files with
    | arr items => exact answers_envelopeRecords hsafe items s
    | _ => exact iff_of_true (answers_rejected _ _) trivial

theorem answers_someRecords (records : List Dict) : Answers (someRecords records) := by
  unfold someRecords
  split_ifs
  · exact answers_rejected _ _
  · exact answers_ok _

/-- **When a text is normalised or rejected.** -/
theorem answers_normalizeText : ∀ (fuel : ℕ) (text : Str) (s : σ),
    Answers (normalizeText py dec ask fuel text s).1 ↔ SafeText py dec ask fuel text s
  | 0, _, _ => answers_error
  | fuel + 1, text, s => by
    unfold normalizeText SafeText
    rw [answers_pureStep, answers_jsonDocuments]
    refine and_congr_right fun _ => forall_congr' fun documents => forall_congr' fun _ => ?_
    rw [answers_bind, answers_documentRecords (answers_normalizeText fuel)]
    refine and_congr_right fun _ => ?_
    have hcards : ∀ found s', Answers ((orCards py ask text found >>= fun records =>
        pureStep (someRecords records)) s').1 ↔
          (found = [] → SafeLines py ask (splitlines false text) s') := by
      intro found s'
      rw [answers_bind]
      have hlast : ∀ records s'', orCards py ask text found s' = (.ok records, s'') →
          Answers (pureStep (someRecords records) s'').1 := fun records _ _ =>
        answers_someRecords records
      rw [and_iff_left hlast, orCards]
      by_cases hempty : found = []
      · rw [if_pos hempty, answers_refreshLines]
        exact ⟨fun h _ => h, fun h => h hempty⟩
      · rw [if_neg hempty]
        exact iff_of_true (answers_ok _) fun h => absurd h hempty
    constructor
    · exact fun h s' hrun => (hcards [] s').mp (h [] s' hrun) rfl
    · intro h found s' hrun
      refine (hcards found s').mpr fun hempty => h s' ?_
      rw [hrun, hempty]

/-- Records are unique when all of them have fingerprints. -/
theorem answers_unique (records : List Dict) : Answers (unique py records) ↔
    ∀ record ∈ records, encodable ([0].intercalate (fingerprintParts py record)) = true := by
  have hkeyed : ∀ records : List Dict, Answers (keyed (fingerprint py) records) ↔
      ∀ record ∈ records, encodable ([0].intercalate (fingerprintParts py record)) = true := by
    intro records
    induction records with
    | nil => exact iff_of_true (answers_ok _) (by simp)
    | cons record rest ih =>
      have hone : Answers (fingerprint py record) ↔
          encodable ([0].intercalate (fingerprintParts py record)) = true := by
        unfold fingerprint
        dsimp only
        by_cases hencodable : encodable ([0].intercalate (fingerprintParts py record)) = true
        · rw [if_pos hencodable]
          exact iff_of_true (answers_ok _) hencodable
        · rw [if_neg hencodable]
          exact answers_error.trans (iff_of_false id hencodable)
      have hall : ∀ print, Answers (keyed (fingerprint py) rest >>= fun more =>
          .ok ((print, record) :: more)) ↔ Answers (keyed (fingerprint py) rest) := fun print => by
        rw [answers_seq]
        exact ⟨And.left, fun h => ⟨h, fun _ _ => answers_ok _⟩⟩
      rw [List.forall_mem_cons, ← ih, ← hone, keyed, answers_seq]
      constructor
      · rintro ⟨hprint, hrest⟩
        obtain ⟨print, hfound⟩ | ⟨e, he, hrefused⟩ := only_iff.mp hprint
        · exact ⟨hprint, (hall print).mp (hrest print hfound)⟩
        · unfold fingerprint at he
          dsimp only at he
          split_ifs at he
          rw [← Except.error.inj he] at hrefused
          exact hrefused.elim
      · exact fun h => ⟨h.1, fun print _ => (hall print).mpr h.2⟩
  unfold unique
  rw [answers_seq, hkeyed]
  exact ⟨And.left, fun h => ⟨h, fun _ _ => answers_ok _⟩⟩

/-- **When a source is normalised or rejected.** -/
theorem answers_normalize (raw : Bytes) (s : σ) :
    Answers (Importer.normalize py dec ask raw s).1 ↔ Safe py dec ask raw s := by
  unfold Importer.normalize Safe
  rw [answers_pureStep, and_iff_right (answers_decodeSource raw)]
  refine forall_congr' fun text => forall_congr' fun _ => ?_
  rw [answers_bind, answers_normalizeText]
  exact and_congr_right fun _ => forall_congr' fun records => forall_congr' fun _ =>
    forall_congr' fun _ => answers_unique records

/-! ### The import -/

variable {force : Bool}

/-- The digests are hexadecimal, so that a target has a file name. -/
def HexDigests (py : Py) : Prop := ∀ raw, ∀ c ∈ py.sha256 raw, (48 ≤ c ∧ c ≤ 57) ∨ (97 ≤ c ∧ c ≤ 102)

theorem target_ok_of (hhex : HexDigests py) {record : Dict}
    (h : encodable ([0].intercalate (fingerprintParts py record)) = true) :
    ∃ name, target py record = .ok name := by
  have hprint : fingerprint py record =
      .ok (py.sha256 (utf8 ([0].intercalate (fingerprintParts py record)))) := if_pos h
  have hvalid : ValidName (targetName
      (py.sha256 (utf8 ([0].intercalate (fingerprintParts py record))))) := by
    have hchars : ∀ c, c ∈ targetName
        (py.sha256 (utf8 ([0].intercalate (fingerprintParts py record)))) → c ≠ 47 ∧ c ≠ 0 := by
      intro c hc
      rcases List.mem_append.mp hc with hc | hc
      · rcases List.mem_append.mp hc with hc | hc
        · exact (by decide : ∀ c ∈ lit "codex-", c ≠ 47 ∧ c ≠ 0) c hc
        · have := hhex _ c (List.mem_of_mem_take hc)
          omega
      · exact (by decide : ∀ c ∈ lit ".json", c ≠ 47 ∧ c ≠ 0) c hc
    have hlength : 11 ≤ (targetName
        (py.sha256 (utf8 ([0].intercalate (fingerprintParts py record))))).length := by
      have h1 : (lit "codex-").length = 6 := by decide
      have h2 : (lit ".json").length = 5 := by decide
      unfold targetName
      simp only [List.length_append]
      omega
    refine ⟨fun h => ?_, fun h => (hchars 47 h).1 rfl, fun h => (hchars 0 h).2 rfl, fun h => ?_,
      fun h => ?_⟩
    · rw [h] at hlength
      exact absurd hlength (by decide)
    · rw [h] at hlength
      exact absurd hlength (by decide)
    · rw [h] at hlength
      exact absurd hlength (by decide)
  refine ⟨⟨_, hvalid⟩, ?_⟩
  have hname : FileName.ofStr? (targetName
      (py.sha256 (utf8 ([0].intercalate (fingerprintParts py record))))) = some ⟨_, hvalid⟩ :=
    dif_pos hvalid
  simp only [target, hprint, bind, Except.bind, hname]
  rfl

theorem answers_planFrom {auth : AuthDir} : ∀ {records : List Dict} {i : ℕ},
    (∀ record ∈ records, ∃ name, target py record = .ok name) →
      Answers (planFrom py (fun _ => false) force auth i records)
  | [], _, _ => answers_ok _
  | record :: rest, i, h => by
    obtain ⟨name, hname⟩ := h record List.mem_cons_self
    have hrest : ∀ i, Answers (planFrom py (fun _ => false) force auth i rest) := fun i =>
      answers_planFrom fun r hr => h r (List.mem_cons_of_mem record hr)
    unfold planFrom
    rw [answers_seq]
    refine ⟨by rw [hname]; exact answers_ok _, fun name _ => ?_⟩
    dsimp only
    split_ifs with h1 h2 h3 h4
    · exact answers_rejected _ _
    · exact absurd h2 (by simp)
    · exact answers_seq.mpr ⟨hrest (i + 1), fun _ _ => answers_ok _⟩
    · exact answers_rejected _ _
    · exact answers_seq.mpr ⟨hrest (i + 1), fun _ _ => answers_ok _⟩

theorem answers_storeRecords {records : List Dict} {auth : AuthDir} {dry : Bool}
    (hauth : auth ≠ .blocked) (h : ∀ record ∈ records, ∃ name, target py record = .ok name) :
    Answers (storeRecords py (fun _ => false) force dry records auth).1 := by
  have hlocked : Answers (underLock py (fun _ => false) force dry records auth).1 := by
    have hplan : Answers (planFrom py (fun _ => false) force auth 0 records) := answers_planFrom h
    unfold underLock
    rw [if_neg (by simp)]
    rcases hrun : planFrom py (fun _ => false) force auth 0 records with e | ⟨skipped, plan⟩
    · rw [hrun] at hplan
      exact answers_error.mpr (answers_error.mp hplan)
    · dsimp only
      split_ifs
      · exact answers_ok _
      · unfold carryOut
        dsimp only
        split_ifs
        · exact answers_ok _
        · exact answers_rejected _ _
  rcases auth with _ | _ | ⟨others, files⟩
  · exact hlocked
  · exact absurd rfl hauth
  · exact hlocked

/-- The document of the command. -/
def IsDocument (x : Except PyError Json) : Prop :=
  ∃ fields, x = .ok (.obj fields) ∧ get fields (lit "schema") = .str (lit "cloudx.import.v1")

/-- What is normalised is stored or rejected. -/
theorem answers_importRecords (hhex : HexDigests py) {capability : Option Str} {dry : Bool} (raw : Bytes)
    (s : σ) {auth : AuthDir} (hauth : auth ≠ .blocked) :
    Answers (importRecords py (fun _ => false) force dec ask capability dry raw s auth).1 ↔
      Safe py dec ask raw s := by
  rw [← answers_normalize]
  unfold importRecords
  rcases hrun : Importer.normalize py dec ask raw s with ⟨e | records, s'⟩
  · exact answers_error.trans answers_error.symm
  refine iff_of_true ?_ (answers_ok _)
  have htargets : ∀ record ∈ records, ∃ name, target py record = .ok name := by
    intro record hmem
    unfold Importer.normalize at hrun
    obtain ⟨text, s₁, -, hrun⟩ := Act.bind_eq_ok.mp hrun
    obtain ⟨all, s₂, -, hrun⟩ := Act.bind_eq_ok.mp hrun
    obtain ⟨keys, hkeys⟩ := unique_ok (Prod.mk.inj hrun).1
    obtain ⟨x, -, rfl, hprint⟩ := forall₂_mem_left (forall_keyed hkeys.1) record hmem
    unfold fingerprint at hprint
    dsimp only at hprint
    split_ifs at hprint with hencodable
    exact target_ok_of hhex hencodable
  dsimp only
  have hcheck : Answers (checkCapability py capability records) := by
    unfold checkCapability
    dsimp only
    split_ifs
    · exact answers_ok _
    · exact answers_error.mpr trivial
    · exact answers_error.mpr trivial
    · exact answers_ok _
  rcases hcapable : checkCapability py capability records with e | ⟨⟩
  · rw [hcapable] at hcheck
    exact answers_error.mpr (answers_error.mp hcheck)
  · have hstore : Answers (storeRecords py (fun _ => false) force dry records auth).1 :=
      answers_storeRecords hauth htargets
    dsimp only
    rcases hresult : (storeRecords py (fun _ => false) force dry records auth).1 with e | counts
    · rw [hresult] at hstore
      exact answers_error.mpr (answers_error.mp hstore)
    · exact answers_ok _

theorem replicate_ne_nil : List.replicate 64 97 ≠ [] := by decide

/-- An interpreter with a token that expires after the year 9999. -/
def farPy : Py :=
  { tablePy [] [] [(lit "p", .obj [(lit "exp", .int (10 ^ 20))])] with
    sha256 := fun _ => List.replicate 64 97
    sha256_ne_nil := fun _ => replicate_ne_nil }

/-- A decoder that reads every text as this access token. -/
def accessDecoder (token : String) : Decoder where
  loads _ := .value (.obj [(lit "access_token", .str (lit token))])
  rawDecode _ _ := .jsonError 0

end Cloudx.Cloud.ImportAnswers
