import Cloudx.Cloud.Importer
import Cloudx.Lib.Script
import Cloudx.Local.ImportWrites
import Cloudx.Shared.TokenEndpoint

/-! # Raw cards in a local import

`_raw_cards`, `_refresh_card` and `_normalize_text` with the token endpoint in its place. All lines of a
text are read before its first card is refreshed, and the lines without a card are only counted when
there is no card at all. A dry run takes the cards as they are and asks nothing (`asks_dry`).

The pattern of a card is that of the cloud importer. -/

namespace Cloudx.Local.RawCards

open Cloudx.Lib.Memo Cloudx.Lib.Fault Cloudx.Lib.Script
open Cloudx.Python.Text Cloudx.Python.Value Cloudx.Python.Dump Cloudx.Python.Decode
open Cloudx.Shared Cloudx.Shared.Source Cloudx.Shared.TokenEndpoint
open Cloudx.Cloud.Importer (Request rawCard pureStep pureStep_ok)
open Cloudx.Local.Import Cloudx.Local.Importer Cloudx.Local.ImportWrites

variable {σ : Type}

/-- `RawCardCredential` -/
structure RawCardCredential where
  lineNumber : ℕ
  email : Str
  clientId : Str
  refreshToken : Str
deriving DecidableEq

/-- `MAX_SOURCE_BYTES` -/
def maxSourceBytes : ℕ := 16 * 1024 * 1024

/-! ### The lines -/

/-- `_raw_cards` of a line: nothing for a header, its number if it is no card, else the card. -/
def cardLine (number : ℕ) (raw : Str) : Option (Except ℕ RawCardCredential) :=
  let line := (strip raw).dropWhile (· = 0xFEFF)
  if line = [] ∨ line = [0x5361, 0x5BC6, 0x5BFC, 0x51FA] then none
  else match rawCard [] line with
    | none => some (.error number)
    | some card =>
      let refreshToken := strip card.refresh
      if !(strip card.email).contains 64 ∨ !startsWith refreshToken (lit "rt.") ∨
          refreshToken.count 46 < 2 then some (.error number)
      else some (.ok ⟨number, strip card.email, strip card.client, refreshToken⟩)

/-- The lines from number `n` on. -/
def cardLines : ℕ → List Str → List (Except ℕ RawCardCredential)
  | _, [] => []
  | n, raw :: rest => (cardLine n raw).toList ++ cardLines (n + 1) rest

/-- `_raw_cards` -/
def rawCards (text : Str) : Except PyError (List RawCardCredential) :=
  let lines := cardLines 1 (splitlines false text)
  let invalid := lines.filterMap fun line => match line with
    | .error number => some number
    | .ok _ => none
  match lines.filterMap Except.toOption with
  | [] => .error (.refused "unsupported_format"
      (lit "no JSON credentials or raw card lines were recognized" ++
        if invalid = [] then []
        else lit "; unrecognized lines: " ++ (lit ", ").intercalate ((invalid.take 5).map decimal)))
  | card :: cards => .ok (card :: cards)

variable (py : Py) (dec : Decoder)

/-! ### The refresh -/

/-- The label of a card. -/
def cardLabel (card : RawCardCredential) : Str := lit "raw card line " ++ decimal card.lineNumber

/-- The entry of a refreshed card. -/
def cardEntry (card : RawCardCredential) (payload : Dict) : Dict :=
  [(lit "type", .str (lit "codex")), (lit "email", .str card.email),
    (lit "access_token", get payload (lit "access_token")),
    (lit "refresh_token", pyOr (get payload (lit "refresh_token")) (.str card.refreshToken)),
    (lit "id_token", pyOr (get payload (lit "id_token")) (.str []))]

/-- The entry of a card in a dry run. -/
def dryEntry (card : RawCardCredential) : Dict :=
  [(lit "type", .str (lit "codex")), (lit "email", .str card.email),
    (lit "refresh_token", .str card.refreshToken)]

/-- What `_refresh_card` makes of an answer. -/
def refreshed (card : RawCardCredential) : Reply → Except PyError Dict
  | .httpError code => .error (.refused "refresh_rejected"
      (cardLabel card ++ lit " refresh was rejected (HTTP " ++ decimal code ++ lit ")"))
  | .unavailable => .error (.refused "refresh_unavailable"
      (lit "raw card token refresh is unavailable"))
  | .raised e => .error e
  | .body file =>
    if maxSourceBytes < file.bytes.length then .error (.refused "refresh_invalid"
      (lit "raw card token refresh response is too large"))
    else match file.content with
      | .value (.obj payload) =>
        if dots (py.str (pyOrs [get payload (lit "access_token")])) < 2 then
          .error (.refused "refresh_invalid"
            (lit "raw card token refresh returned no usable access token"))
        else flatAuth py (cardEntry card payload) (cardLabel card)
      | .value _ => .error (.refused "refresh_invalid"
          (lit "raw card token refresh returned no usable access token"))
      | .raised e => .error e
      | _ => .error (.refused "refresh_invalid"
          (lit "raw card token refresh returned invalid JSON"))

/-- `_refresh_card`: the form is encoded before the request. -/
def refreshCard (serve : Server Request Reply σ) (card : RawCardCredential) : Act σ PyError Dict :=
  fun s =>
    if !(encodable card.clientId && encodable card.refreshToken) then (.error .unicodeEncode, s)
    else
      let answer := serve ⟨card.clientId, card.refreshToken⟩ s
      (refreshed py card answer.1, answer.2)

/-- The records of some cards. -/
def refreshCards (serve : Server Request Reply σ) : List RawCardCredential → Act σ PyError (List Dict)
  | [] => pure []
  | card :: rest => do
    let record ← refreshCard py serve card
    let more ← refreshCards serve rest
    return record :: more

/-! ### The records of the sources -/

/-- The records of the raw cards of a text. -/
def cardRecords (dry : Bool) (serve : Server Request Reply σ) (text : Str) :
    Act σ PyError (List Dict) := do
  let cards ← pureStep (rawCards text)
  if dry then pureStep (flatAll py (cards.map fun card => (dryEntry card, cardLabel card)))
  else refreshCards py serve cards

/-- `_normalize_text` -/
def normalizeText (dry : Bool) (serve : Server Request Reply σ) (source : SourceText) :
    Act σ PyError (List Dict) := do
  let documents ← pureStep (jsonDocuments dec source.text)
  if documents ≠ [] then pureStep (expandDocuments py source.label 1 documents)
  else cardRecords py dry serve source.text

/-- The records of a source with their name hints. -/
def hinted (source : SourceText) (total : ℕ) (i : ℕ) (records : List Dict) : List (Dict × Str) :=
  (records.zipIdx i).map fun x => (x.1, source.hint (x.2 + 1) total)

/-- The records of all sources, each with its name hint. -/
def collect (dry : Bool) (serve : Server Request Reply σ) :
    List SourceText → Act σ PyError (List (Dict × Str))
  | [] => pure []
  | source :: rest => do
    let records ← normalizeText py dec dry serve source
    let more ← collect dry serve rest
    return hinted source records.length 0 records ++ more

/-- `import_text`, `import_path` of texts: the result, what the endpoint has become, and the auth
directory. -/
def importSources (fails : ImportWrites.Step → Bool) (opts : Options) (dry : Bool)
    (serve : Server Request Reply σ) (sources : List SourceText) (s : σ) (auth : AuthDir) :
    Except PyError Report × σ × AuthDir :=
  match collect py dec dry serve sources s with
  | (.error e, s') => (.error e, s', auth)
  | (.ok records, s') =>
    let r := completeImport py fails opts dry records auth
    (r.1, s', r.2)

/-! ### The script -/

/-- A turn of the importer. -/
abbrev CardTurn := Turn Request Reply PyError (Dict × Str)

/-- The turns of some cards, from number `i` of `total` on. -/
def cardSteps (source : SourceText) (total : ℕ) : ℕ → List RawCardCredential → List CardTurn
  | _, [] => []
  | i, card :: rest =>
    (if encodable card.clientId && encodable card.refreshToken then
      .ask ⟨card.clientId, card.refreshToken⟩ fun reply =>
        (refreshed py card reply).map fun record => (record, source.hint (i + 1) total)
    else .stop .unicodeEncode) :: cardSteps source total (i + 1) rest

/-- The turn of records that are there. -/
def givenStep (source : SourceText) : Except PyError (List Dict) → CardTurn
  | .error e => .stop e
  | .ok records => .give (hinted source records.length 0 records)

/-- The turns of a text. -/
def textScript (dry : Bool) (source : SourceText) : List CardTurn :=
  match jsonDocuments dec source.text with
  | .error e => [.stop e]
  | .ok (document :: documents) =>
    [givenStep source (expandDocuments py source.label 1 (document :: documents))]
  | .ok [] => match rawCards source.text with
    | .error e => [.stop e]
    | .ok cards =>
      if dry then [givenStep source (flatAll py (cards.map fun card => (dryEntry card, cardLabel card)))]
      else cardSteps py source cards.length 0 cards

/-- The turns of all sources. -/
def sourcesScript (dry : Bool) (sources : List SourceText) : List CardTurn :=
  sources.flatMap (textScript py dec dry)

variable {py dec} {serve : Server Request Reply σ}

/-- **A dry run asks nothing.** -/
theorem asks_dry : ∀ sources : List SourceText, asks (sourcesScript py dec true sources) = false
  | [] => rfl
  | source :: rest => by
    have hgiven : ∀ records,
        asks (givenStep source records :: sourcesScript py dec true rest) = false := by
      rintro (e | records)
      · rfl
      · exact asks_dry rest
    have hscript : sourcesScript py dec true (source :: rest) =
        textScript py dec true source ++ sourcesScript py dec true rest := List.flatMap_cons
    rw [hscript, textScript]
    rcases jsonDocuments dec source.text with e | _ | ⟨document, documents⟩
    · rfl
    · rcases rawCards source.text with e | cards
      · rfl
      · exact hgiven _
    · exact hgiven _

/-! ### The records are those of the script -/

theorem play_givenStep (source : SourceText) (records : Except PyError (List Dict)) (s : σ) :
    play serve [givenStep source records] s =
      ((records.map fun found => hinted source found.length 0 found), s) := by
  rcases records with e | found
  · rfl
  · show ((.ok (hinted source found.length 0 found ++ []), s) :
      Except PyError (List (Dict × Str)) × σ) = _
    rw [List.append_nil]
    rfl

theorem refreshCard_run {card : RawCardCredential}
    (h : (encodable card.clientId && encodable card.refreshToken) = true) (s : σ) :
    refreshCard py serve card s = (refreshed py card (serve ⟨card.clientId, card.refreshToken⟩ s).1,
      (serve ⟨card.clientId, card.refreshToken⟩ s).2) := by
  rw [refreshCard, if_neg (by simp [h])]

/-- The records of some cards with their hints. -/
theorem play_cardSteps (source : SourceText) (total : ℕ) : ∀ (i : ℕ)
    (cards : List RawCardCredential) (s : σ), play serve (cardSteps py source total i cards) s =
      ((refreshCards py serve cards s).1.map (hinted source total i),
        (refreshCards py serve cards s).2)
  | _, [], _ => rfl
  | i, card :: rest, s => by
    have ih := play_cardSteps source total (i + 1) rest
    rw [cardSteps, refreshCards]
    by_cases henc : (encodable card.clientId && encodable card.refreshToken) = true
    swap
    · have hrun : refreshCard py serve card s = (.error .unicodeEncode, s) := by
        rw [refreshCard, if_pos (by simp [henc])]
      rw [if_neg henc, Act.bind_error hrun]
      rfl
    rw [if_pos henc]
    have hrun := @refreshCard_run _ py serve _ henc s
    rcases hrefreshed : refreshed py card (serve ⟨card.clientId, card.refreshToken⟩ s).1 with e | record
    · rw [hrefreshed] at hrun
      rw [play_ask_error (show (refreshed py card _).map _ = .error e by rw [hrefreshed]; rfl),
        Act.bind_error hrun]
      rfl
    · rw [hrefreshed] at hrun
      rw [play_ask_ok (show (refreshed py card _).map _ = .ok (record, source.hint (i + 1) total) by
        rw [hrefreshed]; rfl), Act.bind_ok hrun, Act.bind_run, Act.bind_run, ih]
      rcases refreshCards py serve rest (serve ⟨card.clientId, card.refreshToken⟩ s).2 with ⟨e | more, t⟩
      · rfl
      · rfl

/-- Each card gives one record. -/
theorem length_refreshCards : ∀ {cards : List RawCardCredential} {s t : σ} {records : List Dict},
    refreshCards py serve cards s = (.ok records, t) → records.length = cards.length
  | [], _, _, _, h => by
    rw [← Except.ok.inj (Prod.mk.inj h).1]
    rfl
  | card :: rest, s, t, records, h => by
    rw [refreshCards] at h
    obtain ⟨record, u, -, h⟩ := Act.bind_eq_ok.mp h
    obtain ⟨more, v, hmore, h⟩ := Act.bind_eq_ok.mp h
    rw [← Except.ok.inj (Prod.mk.inj h).1, List.length_cons, List.length_cons, length_refreshCards hmore]

/-- **A text is read by its script.** -/
theorem textScript_eq (dry : Bool) (source : SourceText) (s : σ) :
    play serve (textScript py dec dry source) s =
      ((normalizeText py dec dry serve source s).1.map
        (fun records => hinted source records.length 0 records),
      (normalizeText py dec dry serve source s).2) := by
  unfold textScript normalizeText
  rcases jsonDocuments dec source.text with e | _ | ⟨document, documents⟩
  · rfl
  · rw [Act.bind_ok (pureStep_ok rfl s), if_neg (by simp), cardRecords]
    rcases rawCards source.text with e | cards
    · rfl
    · rw [Act.bind_ok (pureStep_ok rfl s)]
      rcases dry with _ | _
      · simp only [Bool.false_eq_true, if_false]
        rw [play_cardSteps]
        rcases hcards : refreshCards py serve cards s with ⟨e | records, t⟩
        · rfl
        · simp only [Except.map]
          rw [length_refreshCards hcards]
      · exact play_givenStep source _ s
  · rw [Act.bind_ok (pureStep_ok rfl s), if_pos (by simp)]
    exact play_givenStep source _ s

/-- **All sources are read by their script.** -/
theorem collect_eq (dry : Bool) : ∀ (sources : List SourceText) (s : σ),
    collect py dec dry serve sources s = play serve (sourcesScript py dec dry sources) s
  | [], _ => rfl
  | source :: rest, s => by
    have hscript : sourcesScript py dec dry (source :: rest) =
        textScript py dec dry source ++ sourcesScript py dec dry rest := List.flatMap_cons
    rw [hscript, play_append, Act.bind_run, textScript_eq, collect, Act.bind_run]
    rcases normalizeText py dec dry serve source s with ⟨e | records, t⟩
    · rfl
    · simp only [Except.map]
      rw [Act.bind_run, Act.bind_run, collect_eq dry rest t]

end Cloudx.Local.RawCards
