import Cloudx.Lib.Fault
import Cloudx.Lib.Memo
import Cloudx.Python.Reread
import Cloudx.Shared.Source

/-! # What the cloud importer reads

`importer.py` up to `normalize`: the text of a source, its JSON documents, the entries of these, one
flat record for each, and without any of them the raw card lines, which are refreshed at the token
endpoint one after the other. The records with new fingerprints are kept.

`ImportRejected` is its code and message; other exceptions are told apart from it. What the endpoint
has done stays done when a later record is rejected. -/

namespace Cloudx.Cloud.Importer

open Cloudx.Lib.Memo Cloudx.Lib.Fault
open Cloudx.Python.Text Cloudx.Python.Value Cloudx.Python.Dump Cloudx.Python.Decode
open Cloudx.Python.Compact Cloudx.Python.Reread
open Cloudx.Shared Cloudx.Shared.Credential Cloudx.Shared.Source

/-- `ImportRejected(code, message)` -/
def rejected (code message : String) : PyError := .refused code (lit message)

/-! ### The text of a source -/

/-- `_decode_source` -/
def decodeSource (raw : Bytes) : Except PyError Str :=
  let marked := raw.take 2 = [0xFF, 0xFE] ∨ raw.take 2 = [0xFE, 0xFF]
  if 0 ∈ raw ∧ ¬ marked then .error (rejected "source_not_text" "import source must be text")
  else match decodeUtf8Sig raw with
    | some text => .ok text
    | none => match decodeUtf16 raw with
      | some text => .ok text
      | none => .error (rejected "source_encoding" "import source must be UTF-8 or UTF-16")

/-- **An ASCII text is read as it was written.** -/
theorem decodeSource_ascii {s : Str} (h : Ascii s) (hzero : 0 ∉ s) : decodeSource (utf8 s) = .ok s := by
  have hbytes : 0 ∉ utf8 s := fun hmem => hzero (mem_utf8_ascii h hmem : (0 : UInt8).toNat ∈ s)
  unfold decodeSource
  dsimp only
  rw [if_neg fun hraw => hbytes hraw.1, decodeUtf8Sig_ascii h]

/-- `_json_documents` -/
def jsonDocuments (dec : Decoder) (text : Str) : Except PyError (List Json) :=
  let stripped := strip text
  if stripped = [] then .error (rejected "source_empty" "import source is empty")
  else match dec.loads stripped with
    | .value v => .ok [v]
    | .raised e => .error e
    | _ => valuesFrom dec
      (fun _ => rejected "invalid_json" "import source contains invalid JSON") text
      (text.length + 1) 0

/-! ### The entries of a document -/

/-- The types of a bundle of files. -/
def bundleTypes : List Json :=
  [.str (lit "cliproxy-auth-bundle"), .str (lit "codexx-cliproxy-auth-bundle")]

/-- The credential in an item of a bundle. -/
def dataOf : Json → Option Dict
  | .obj item => match get item (lit "data") with
    | .obj data => some data
    | _ => none
  | _ => none

mutual
/-- `_expand` -/
def expand : Json → List Dict
  | .arr items => expandItems items
  | .obj value =>
    match accountsIn (lit "result") value with
    | some entries => entries
    | none => match accountsIn (lit "payload") value with
      | some entries => entries
      | none => match listIn value with
        | some entries => entries
        | none => match get value (lit "files") with
          | .arr files =>
            if get value (lit "type") ∈ bundleTypes then files.filterMap dataOf else [value]
          | _ => [value]
  | _ => []
/-- The entries of the objects in a list. -/
def expandItems : List Json → List Dict
  | [] => []
  | item :: rest =>
    (match item with
      | .obj _ => expand item
      | _ => []) ++ expandItems rest
/-- The entries of the `accounts` of the object under `key`. -/
def accountsIn (key : Str) : List (Str × Json) → Option (List Dict)
  | [] => none
  | (k, value) :: rest => if k = key then accountsOf value else accountsIn key rest
/-- The entries of the `accounts` of an object. -/
def accountsOf : Json → Option (List Dict)
  | .obj inner => listIn inner
  | _ => none
/-- The entries of the list `accounts`. -/
def listIn : List (Str × Json) → Option (List Dict)
  | [] => none
  | (k, value) :: rest => if k = lit "accounts" then listed value else listIn rest
/-- The entries of a list. -/
def listed : Json → Option (List Dict)
  | .arr items => some (expandItems items)
  | _ => none
end

/-! ### Flat records -/

/-- `_iso_epoch`, which lets the exceptions of `datetime.fromtimestamp` pass. -/
def isoEpoch (py : Py) (value : Json) : Except PyError Str :=
  let number : Option Json := match value with
    | .int n => some (.int n)
    | .float x => some (.float x)
    | .bool b => some (.int (if b then 1 else 0))
    | _ => none
  match number with
  | none => .ok []
  | some n => match py.isoFromEpoch n with
    | none => .error .overflow
    | some text => .ok (replace (lit "+00:00") (lit "Z") text)

/-- `expired` of a flat record: a field of its source, or the expiry of a token. -/
def expiredOf (py : Py) (source accessClaims idClaims : Dict) : Except PyError Str :=
  let own := pyOrs [get source (lit "expired"), get source (lit "expiry"),
    get source (lit "auth_expires_at"), get source (lit "expires_at")]
  if truthy own then .ok (strip (py.str own))
  else do
    let access ← isoEpoch py (get accessClaims (lit "exp"))
    if access ≠ [] then return strip access
    else
      let identity ← isoEpoch py (get idClaims (lit "exp"))
      return strip identity

/-- The source of an entry: its credentials if it has some, else the entry itself. -/
def sourceOf (entry : Dict) : Dict :=
  match get entry (lit "credentials") with
  | .obj credentials => credentials
  | _ => entry

/-- Whether an entry has credentials. -/
def hasCredentials (entry : Dict) : Bool :=
  match get entry (lit "credentials") with
  | .obj _ => true
  | _ => false

/-- `auth_type` of an entry -/
def authType (py : Py) (entry source : Dict) : Str :=
  let nested := py.casefold (py.str (pyOrs [get source (lit "type"), get source (lit "provider")]))
  let outer := py.casefold (py.str (pyOrs [get entry (lit "type")]))
  let platform := py.casefold (py.str (pyOrs [get entry (lit "platform")]))
  if nested ≠ [] then nested
  else if hasCredentials entry ∧ outer = lit "oauth" ∧ platform = lit "openai" then lit "codex"
  else if outer ≠ [] then outer
  else lit "codex"

/-- The keys a flat record copies from its source. -/
def copiedKeys : List Str :=
  [lit "label", lit "source", lit "last_refresh", lit "plan_type", lit "status"]

/-- The flat record of a source with tokens. -/
def flatRecord (py : Py) (entry source : Dict) (tokens : Tokens) (accessClaims idClaims : Dict)
    (expired : Str) : Dict :=
  let email := py.text [get source (lit "email"), get source (lit "user_email"),
    get entry (lit "name"), get idClaims (lit "email")]
  let accountId := py.text [get source (lit "account_id"), get source (lit "chatgpt_account_id"),
    get (authClaim accessClaims idClaims) (lit "chatgpt_account_id")]
  let flat : Dict := [(lit "type", .str (lit "codex")),
    (lit "disabled", .bool (truthy (get source (lit "disabled")))),
    (lit "websockets", .bool (truthy (get source (lit "websockets")))),
    (lit "access_token", .str tokens.access), (lit "refresh_token", .str tokens.refresh),
    (lit "id_token", .str tokens.id), (lit "account_id", .str accountId)]
  let flat := setIf (email ≠ []) flat (lit "email") (.str email)
  let flat := setIf (expired ≠ []) flat (lit "expired") (.str expired)
  copyKeys source copiedKeys flat

/-- `_flatten` -/
def flatten (py : Py) (entry : Dict) : Except PyError Dict :=
  let source := sourceOf entry
  if AgentIdentity.isAgentIdentity py source then
    match AgentIdentity.normalize py source (py.text [get entry (lit "account_id")])
        (py.text [get entry (lit "name")]) with
    | .ok record => .ok record
    | .error message => .error (.refused "credential_invalid"
        (lit "an Agent Identity import record is invalid: " ++ message))
  else
    let tokens := authTokens py source
    if !tokens.any then
      .error (rejected "missing_token" "an import record has no supported token")
    else do
      let accessClaims ← decodeJwtPayload py tokens.access
      let idClaims ← decodeJwtPayload py tokens.id
      if authType py entry source ≠ lit "codex" then
        .error (rejected "wrong_provider" "an import record is not a Codex credential")
      else
        let expired ← expiredOf py source accessClaims idClaims
        return flatRecord py entry source tokens accessClaims idClaims expired

/-- The flat records of some entries. -/
def flattenAll (py : Py) : List Dict → Except PyError (List Dict)
  | [] => .ok []
  | entry :: rest => do
    let record ← flatten py entry
    let more ← flattenAll py rest
    return record :: more

/-! ### Raw card lines -/

/-- A character of a client id. -/
def isClientChar (c : ℕ) : Bool :=
  (65 ≤ c && c ≤ 90) || (97 ≤ c && c ≤ 122) || (48 ≤ c && c ≤ 57) || c == 95 || c == 45

/-- The end `-{4,}(.+)$` of a card. -/
def cardEnd (s : Str) : Option Str :=
  let dashes := (s.takeWhile (· = 45)).length
  if dashes < 4 then none
  else if s.drop dashes ≠ [] then some (s.drop dashes)
  else if 4 < dashes then some [45]
  else none

/-- `([A-Za-z0-9_-]+)-{4,}(.+)$`, with at most so many characters in the first group. -/
def cardClient (s : Str) : ℕ → Option (Str × Str)
  | 0 => none
  | n + 1 =>
    match cardEnd (s.drop (n + 1)) with
    | some token => some (s.take (n + 1), token)
    | none => cardClient s n

/-- `-{8,}(app_[A-Za-z0-9_-]+)-{4,}(.+)$` -/
def cardRest (s : Str) : Option (Str × Str) :=
  let dashes := (s.takeWhile (· = 45)).length
  let after := s.drop dashes
  if 8 ≤ dashes ∧ startsWith after (lit "app_") then
    (cardClient (after.drop 4) ((after.drop 4).takeWhile isClientChar).length).map fun r =>
      (lit "app_" ++ r.1, r.2)
  else none

/-- The groups of `RAW_CARD`: the address, the client and the refresh token. -/
structure Card where
  email : Str
  client : Str
  refresh : Str
deriving DecidableEq

/-- `RAW_CARD.match`, where `head` has been taken into the first group. -/
def rawCard (head : Str) : Str → Option Card
  | [] => none
  | c :: s =>
    match cardRest s with
    | some (client, token) => some ⟨head ++ [c], client, token⟩
    | none => rawCard (head ++ [c]) s

/-- `_normalize_text` of a line: nothing for a header, else the card in it, stripped. -/
def cardOf (rawLine : Str) : Except PyError (Option Card) :=
  let line := (strip rawLine).dropWhile (· = 0xFEFF)
  if line = [] ∨ line = lit "card export" ∨ line = [0x5361, 0x5BC6, 0x5BFC, 0x51FA] then .ok none
  else match rawCard [] line with
    | some card =>
      if card.email.contains 64 then .ok (some ⟨strip card.email, strip card.client, strip card.refresh⟩)
      else .error (rejected "unsupported_source" "import source has no supported credential records")
    | none =>
      .error (rejected "unsupported_source" "import source has no supported credential records")

/-- The form of a refresh request. -/
structure Request where
  clientId : Str
  refreshToken : Str
deriving DecidableEq

/-- The token endpoint: what it does with a request, and the JSON of its answer; `none` if there is
none or it cannot be read. -/
def Endpoint (σ : Type) := Request → σ → Option Json × σ

variable {σ : Type}

/-- What does not touch the endpoint. -/
def pureStep {α : Type} (x : Except PyError α) : Act σ PyError α := fun s => (x, s)

theorem pureStep_ok {α : Type} {x : Except PyError α} {a : α} (h : x = .ok a) (s : σ) :
    pureStep x s = (.ok a, s) := by rw [pureStep, h]

/-- The entry of a refreshed card. -/
def cardEntry (card : Card) (payload : Dict) : Dict :=
  [(lit "email", .str card.email),
    (lit "access_token", (payload.lookup (lit "access_token")).getD (.str [])),
    (lit "refresh_token", pyOr (get payload (lit "refresh_token")) (.str card.refresh)),
    (lit "id_token", (payload.lookup (lit "id_token")).getD (.str []))]

/-- `_refresh_card`: the form is encoded before the request, outside the `try` block. -/
def refreshCard (py : Py) (ask : Endpoint σ) (card : Card) : Act σ PyError Dict := fun s =>
  if !(encodable card.client && encodable card.refresh) then (.error .unicodeEncode, s)
  else
    let answer := ask ⟨card.client, card.refresh⟩ s
    match answer.1 with
    | some (.obj payload) => (flatten py (cardEntry card payload), answer.2)
    | _ => (.error (rejected "refresh_failed" "a raw card credential could not be refreshed"), answer.2)

/-- The records of the raw card lines of a text. -/
def refreshLines (py : Py) (ask : Endpoint σ) : List Str → Act σ PyError (List Dict)
  | [] => pure []
  | line :: rest => do
    match ← pureStep (cardOf line) with
    | none => refreshLines py ask rest
    | some card =>
      let record ← refreshCard py ask card
      let more ← refreshLines py ask rest
      return record :: more

/-! ### The records of a source -/

/-- `ImportRejected("invalid_envelope", …)` -/
def invalidEnvelope : PyError := rejected "invalid_envelope" "directory import envelope is invalid"

/-- The text of a file in a directory envelope. -/
def contentOf : Json → Option Str
  | .obj item => match get item (lit "content") with
    | .str content => some content
    | _ => none
  | _ => none

/-- The records of the files of a directory envelope, each by `normal`. -/
def envelopeRecords (normal : Str → Act σ PyError (List Dict)) : List Json → Act σ PyError (List Dict)
  | [] => pure []
  | item :: rest =>
    match contentOf item with
    | none => Act.raise invalidEnvelope
    | some content => do
      let records ← normal content
      let more ← envelopeRecords normal rest
      return records ++ more

/-- The documents of a text that is a directory envelope: its value under `files`. -/
def envelopeFiles : List Json → Option Json
  | [.obj document] =>
    if get document (lit "schema") = .str (lit "cloudx.import-source.v1") then
      some (get document (lit "files"))
    else none
  | _ => none

/-- The records of some documents: of the files of an envelope, each by `normal`, or of the entries. -/
def documentRecords (py : Py) (normal : Str → Act σ PyError (List Dict)) (documents : List Json) :
    Act σ PyError (List Dict) :=
  match envelopeFiles documents with
  | some (.arr files) => envelopeRecords normal files
  | some _ => Act.raise invalidEnvelope
  | none => pureStep (flattenAll py (documents.flatMap expand))

/-- Without records the lines of the text are taken for raw cards. -/
def orCards (py : Py) (ask : Endpoint σ) (text : Str) (records : List Dict) :
    Act σ PyError (List Dict) :=
  if records = [] then refreshLines py ask (splitlines false text) else pure records

/-- A source without records is refused. -/
def someRecords (records : List Dict) : Except PyError (List Dict) :=
  if records = [] then
    .error (rejected "unsupported_source" "import source has no supported credential records")
  else .ok records

/-- `_normalize_text`. A text is longer than what is in it, so that there are fewer levels of
envelopes than characters. -/
def normalizeText (py : Py) (dec : Decoder) (ask : Endpoint σ) : ℕ → Str → Act σ PyError (List Dict)
  | 0, _ => Act.raise .recursion
  | fuel + 1, text => do
    let documents ← pureStep (jsonDocuments dec text)
    let found ← documentRecords py (normalizeText py dec ask fuel) documents
    let records ← orCards py ask text found
    pureStep (someRecords records)

/-- The first record of each fingerprint. -/
def unique (py : Py) (records : List Dict) : Except PyError (List Dict) := do
  let keys ← keyed (fingerprint py) records
  return (firsts keys).map Prod.snd

/-- `normalize` -/
def normalize (py : Py) (dec : Decoder) (ask : Endpoint σ) (raw : Bytes) : Act σ PyError (List Dict) := do
  let text ← pureStep (decodeSource raw)
  let records ← normalizeText py dec ask (text.length + 1) text
  pureStep (unique py records)

/-! ### Fuel -/

/-- A text in the files of an envelope is shorter than the text of the envelope. -/
def Shrinking (dec : Decoder) : Prop := ∀ text documents items, jsonDocuments dec text = .ok documents →
  envelopeFiles documents = some (.arr items) → ∀ item ∈ items, ∀ content,
    contentOf item = some content → content.length < text.length

theorem envelopeRecords_congr {f g : Str → Act σ PyError (List Dict)} : ∀ {items : List Json},
    (∀ item ∈ items, ∀ content, contentOf item = some content → f content = g content) →
      envelopeRecords f items = envelopeRecords g items
  | [], _ => rfl
  | item :: rest, h => by
    unfold envelopeRecords
    rw [envelopeRecords_congr fun i hi => h i (List.mem_cons_of_mem item hi)]
    rcases hcontent : contentOf item with _ | content
    · rfl
    · dsimp only
      rw [h item List.mem_cons_self content hcontent]

/-- **There is fuel enough**: a text needs no more than it has characters. -/
theorem normalizeText_enough {py : Py} {dec : Decoder} {ask : Endpoint σ} (hdec : Shrinking dec) :
    ∀ {n m : ℕ} {text : Str}, text.length < n → text.length < m →
      normalizeText py dec ask n text = normalizeText py dec ask m text
  | 0, _, _, hn, _ => absurd hn (by simp)
  | _ + 1, 0, _, _, hm => absurd hm (by simp)
  | n + 1, m + 1, text, hn, hm => by
    have hfound : ∀ documents, jsonDocuments dec text = .ok documents →
        documentRecords py (normalizeText py dec ask n) documents =
          documentRecords py (normalizeText py dec ask m) documents := by
      intro documents hdocuments
      unfold documentRecords
      rcases henvelope : envelopeFiles documents with _ | files
      · rfl
      · cases files with
        | arr items =>
          refine envelopeRecords_congr fun item hitem content hcontent => ?_
          have hshort := hdec text documents items hdocuments henvelope item hitem content hcontent
          exact normalizeText_enough hdec (by omega) (by omega)
        | _ => rfl
    funext s
    unfold normalizeText
    rcases hdocuments : jsonDocuments dec text with e | documents
    · rfl
    · rw [Act.bind_ok (pureStep_ok rfl s), Act.bind_ok (pureStep_ok rfl s), hfound documents hdocuments]

/-- What is read is not empty. -/
theorem normalizeText_ne_nil {py : Py} {dec : Decoder} {ask : Endpoint σ} : ∀ {n : ℕ} {text : Str}
    {s s' : σ} {records : List Dict},
    normalizeText py dec ask n text s = (.ok records, s') → records ≠ []
  | 0, _, _, _, _, h => absurd (Prod.mk.inj h).1 (by simp)
  | n + 1, text, s, s', records, h => by
    unfold normalizeText at h
    obtain ⟨_, _, -, h⟩ := Act.bind_eq_ok.mp h
    obtain ⟨_, _, -, h⟩ := Act.bind_eq_ok.mp h
    obtain ⟨found, s₃, -, h⟩ := Act.bind_eq_ok.mp h
    have hsome : someRecords found = .ok records := (Prod.mk.inj h).1
    unfold someRecords at hsome
    split_ifs at hsome with hempty
    rw [← Except.ok.inj hsome]
    exact hempty

/-! ### Tests -/

example : rawCard [] (lit "card@example.test--------app_client----rt.old.value") =
    some ⟨lit "card@example.test", lit "app_client", lit "rt.old.value"⟩ := by decide +kernel

/-- The client takes dashes that need not separate it from the token. -/
example : rawCard [] (lit "a@b--------app_c------d") =
    some ⟨lit "a@b", lit "app_c--", lit "d"⟩ := by decide +kernel

end Cloudx.Cloud.Importer
