import Cloudx.Cloud.Importer
import Cloudx.Lib.Script
import Cloudx.Shared.TokenEndpoint

/-! # The requests of a cloud import

The importer reads a source from its beginning to its end and refreshes each raw card where it meets
it. What it asks is laid down in the source; the answers only decide how far it gets. So `normalize`
is a script of requests (`normalize_eq`), and what is wrong with a later line or file comes after the
requests for the earlier ones. -/

namespace Cloudx.Cloud.ImportScript

open Cloudx.Lib.Fault Cloudx.Lib.Script
open Cloudx.Python.Text Cloudx.Python.Value Cloudx.Python.Dump Cloudx.Python.Decode
open Cloudx.Shared Cloudx.Shared.Source Cloudx.Shared.TokenEndpoint Cloudx.Cloud.Importer

variable {σ : Type}

/-- A turn of the importer. -/
abbrev CardTurn := Turn Request Reply PyError Dict

/-- The endpoint as the importer sees it: all exceptions are one. -/
def endpoint (serve : Server Request Reply σ) : Endpoint σ := fun q s =>
  ((serve q s).1.json, (serve q s).2)

variable (py : Py) (dec : Decoder)

/-- What `_refresh_card` makes of an answer. -/
def refreshed (card : Card) (reply : Reply) : Except PyError Dict :=
  match reply.json with
  | some (.obj payload) => flatten py (cardEntry card payload)
  | _ => .error (rejected "refresh_failed" "a raw card credential could not be refreshed")

/-- The turn of a card. -/
def cardStep (card : Card) : CardTurn :=
  if encodable card.client && encodable card.refresh then
    .ask ⟨card.client, card.refresh⟩ (refreshed py card)
  else .stop .unicodeEncode

/-- The turn of a line. -/
def lineStep (line : Str) : CardTurn :=
  match cardOf line with
  | .error e => .stop e
  | .ok none => .give []
  | .ok (some card) => cardStep py card

/-- The turns of the lines of a text, of which one at least has to be a card. -/
def lineScript (text : Str) : List CardTurn :=
  (splitlines false text).map (lineStep py) ++
    if ∀ line ∈ splitlines false text, cardOf line = .ok none then
      [.stop (rejected "unsupported_source" "import source has no supported credential records")]
    else []

/-- The turns of the files of a directory envelope. -/
def itemsScript (script : Str → List CardTurn) : List Json → List CardTurn
  | [] => []
  | item :: rest =>
    match contentOf item with
    | none => [.stop invalidEnvelope]
    | some content => script content ++ itemsScript script rest

/-- The turns of the documents of a text, where `script` gives those of a text in an envelope. -/
def documentsScript (script : Str → List CardTurn) (text : Str) (documents : List Json) :
    List CardTurn :=
  match envelopeFiles documents with
  | some (.arr []) => lineScript py text
  | some (.arr (item :: items)) => itemsScript script (item :: items)
  | some _ => [.stop invalidEnvelope]
  | none => match flattenAll py (documents.flatMap expand) with
    | .error e => [.stop e]
    | .ok [] => lineScript py text
    | .ok (record :: records) => [.give (record :: records)]

/-- The turns of a text. -/
def textScript : ℕ → Str → List CardTurn
  | 0, _ => [.stop .recursion]
  | fuel + 1, text =>
    match jsonDocuments dec text with
    | .error e => [.stop e]
    | .ok documents => documentsScript py (textScript fuel) text documents

/-- The turns of a source. -/
def sourceScript (raw : Bytes) : List CardTurn :=
  match decodeSource raw with
  | .error e => [.stop e]
  | .ok text => textScript py dec (text.length + 1) text

variable {py dec} {serve : Server Request Reply σ}

/-! ### Lines -/

theorem refreshCard_run {card : Card} (h : (encodable card.client && encodable card.refresh) = true)
    (s : σ) : refreshCard py (endpoint serve) card s =
      (refreshed py card (serve ⟨card.client, card.refresh⟩ s).1,
        (serve ⟨card.client, card.refresh⟩ s).2) := by
  unfold refreshCard refreshed endpoint
  rw [if_neg (by simp [h])]
  dsimp only
  rcases (serve ⟨card.client, card.refresh⟩ s).1.json with _ | v
  · rfl
  · cases v with
    | _ => rfl

theorem refreshCard_eq (card : Card) (rest : List CardTurn) (s : σ) :
    play serve (cardStep py card :: rest) s = (do
      let record ← refreshCard py (endpoint serve) card
      let more ← play serve rest
      return record :: more) s := by
  rw [Act.bind_run]
  by_cases henc : (encodable card.client && encodable card.refresh) = true
  swap
  · rw [cardStep, if_neg henc, refreshCard, if_pos (by simp [henc])]
    rfl
  rw [cardStep, if_pos henc, refreshCard_run henc]
  rcases hrefreshed : refreshed py card (serve ⟨card.client, card.refresh⟩ s).1 with e | record
  · rw [play_ask_error hrefreshed]
  · rw [play_ask_ok hrefreshed]

theorem refreshLines_eq : ∀ lines : List Str,
    refreshLines py (endpoint serve) lines = play serve (lines.map (lineStep py))
  | [] => rfl
  | line :: rest => by
    funext s
    unfold refreshLines
    rw [List.map_cons, refreshLines_eq rest]
    rcases hcard : cardOf line with e | _ | card
    · have hstep : lineStep py line = .stop e := by rw [lineStep, hcard]
      rw [hstep]
      rfl
    · have hstep : lineStep py line = .give [] := by rw [lineStep, hcard]
      rw [hstep, Act.bind_ok (pureStep_ok rfl s), play_give, Act.bind_run]
      simp only
      rcases play serve (rest.map (lineStep py)) s with ⟨e | more, t⟩
      · rfl
      · rfl
    · have hstep : lineStep py line = cardStep py card := by rw [lineStep, hcard]
      rw [hstep, Act.bind_ok (pureStep_ok rfl s), refreshCard_eq]

/-- Lines without a card give no record. -/
theorem play_headers : ∀ {lines : List Str}, (∀ line ∈ lines, cardOf line = .ok none) → ∀ s : σ,
    play serve (lines.map (lineStep py)) s = (.ok [], s)
  | [], _, _ => rfl
  | line :: rest, h, s => by
    have hstep : lineStep py line = .give [] := by rw [lineStep, h line List.mem_cons_self]
    rw [List.map_cons, hstep, play_give,
      Act.bind_ok (play_headers (fun l hl => h l (List.mem_cons_of_mem _ hl)) s)]
    rfl

/-- Lines with a card give a record, if they give anything. -/
theorem play_cards : ∀ {lines : List Str} {s t : σ} {records : List Dict},
    ¬ (∀ line ∈ lines, cardOf line = .ok none) →
      play serve (lines.map (lineStep py)) s = (.ok records, t) → records ≠ []
  | [], _, _, _, h, _ => absurd (fun _ hl => absurd hl (by simp)) h
  | line :: rest, s, t, records, h, hrun => by
    rw [List.map_cons] at hrun
    rcases hcard : cardOf line with e | _ | card
    · have hstep : lineStep py line = .stop e := by rw [lineStep, hcard]
      rw [hstep] at hrun
      exact absurd (Prod.mk.inj hrun).1 (by simp)
    · have hstep : lineStep py line = .give [] := by rw [lineStep, hcard]
      rw [hstep, play_give] at hrun
      obtain ⟨more, u, hmore, hrun⟩ := Act.bind_eq_ok.mp hrun
      have hrest : ¬ ∀ l ∈ rest, cardOf l = .ok none := fun hall =>
        h fun l hl => (List.mem_cons.mp hl).elim (fun he => he ▸ hcard) (hall l)
      rw [← Except.ok.inj (Prod.mk.inj hrun).1]
      exact play_cards hrest hmore
    · have hstep : lineStep py line = cardStep py card := by rw [lineStep, hcard]
      rw [hstep, refreshCard_eq] at hrun
      obtain ⟨record, u, -, hrun⟩ := Act.bind_eq_ok.mp hrun
      obtain ⟨more, v, -, hrun⟩ := Act.bind_eq_ok.mp hrun
      rw [← Except.ok.inj (Prod.mk.inj hrun).1]
      exact List.cons_ne_nil _ _

/-- **The lines of a text as raw cards.** -/
theorem lineScript_eq (text : Str) (s : σ) :
    play serve (lineScript py text) s = (do
      let records ← refreshLines py (endpoint serve) (splitlines false text)
      pureStep (someRecords records)) s := by
  rw [lineScript, play_append, Act.bind_run, Act.bind_run, refreshLines_eq]
  by_cases hnone : ∀ line ∈ splitlines false text, cardOf line = .ok none
  · rw [if_pos hnone, play_headers hnone s]
    rfl
  · rw [if_neg hnone]
    rcases hrun : play serve ((splitlines false text).map (lineStep py)) s with ⟨e | records, t⟩
    · rfl
    · have hne := play_cards hnone hrun
      simp only
      rw [pureStep, someRecords, if_neg hne, Act.bind_run]
      show (Except.ok (records ++ []), t) = _
      rw [List.append_nil]

/-! ### Texts -/

theorem envelopeRecords_cons (normal : Str → Act σ PyError (List Dict)) {item : Json} {content : Str}
    (h : contentOf item = some content) (rest : List Json) :
    envelopeRecords normal (item :: rest) = (do
      let records ← normal content
      let more ← envelopeRecords normal rest
      return records ++ more) := by
  rw [envelopeRecords, h]

theorem itemsScript_eq {normal : Str → Act σ PyError (List Dict)} {script : Str → List CardTurn}
    (h : ∀ content, normal content = play serve (script content)) (items : List Json) :
    envelopeRecords normal items = play serve (itemsScript script items) := by
  induction items with
  | nil => rfl
  | cons item rest ih =>
    rcases hcontent : contentOf item with _ | content
    · rw [envelopeRecords, itemsScript, hcontent]
      rfl
    · rw [envelopeRecords_cons normal hcontent, itemsScript, hcontent, play_append, h content, ih]

/-- What an envelope with a file gives is not empty. -/
theorem envelopeRecords_ne_nil {normal : Str → Act σ PyError (List Dict)}
    (h : ∀ content s records t, normal content s = (.ok records, t) → records ≠ []) {item : Json}
    {items : List Json} {s t : σ} {records : List Dict}
    (hrun : envelopeRecords normal (item :: items) s = (.ok records, t)) : records ≠ [] := by
  rcases hcontent : contentOf item with _ | content
  · rw [envelopeRecords, hcontent] at hrun
    exact absurd (Prod.mk.inj hrun).1 (by simp)
  · rw [envelopeRecords_cons normal hcontent] at hrun
    obtain ⟨first, u, hfirst, hrun⟩ := Act.bind_eq_ok.mp hrun
    obtain ⟨more, v, -, hrun⟩ := Act.bind_eq_ok.mp hrun
    rw [← Except.ok.inj (Prod.mk.inj hrun).1]
    exact List.append_ne_nil_of_left_ne_nil (h content s first u hfirst) more

/-- Records that are there are the records of the text. -/
theorem finish_of_ne_nil {x : Act σ PyError (List Dict)} {text : Str} {s : σ}
    (h : ∀ records t, x s = (.ok records, t) → records ≠ []) :
    (do
      let found ← x
      let records ← orCards py (endpoint serve) text found
      pureStep (someRecords records)) s = x s := by
  rw [Act.bind_run]
  rcases hx : x s with ⟨e | records, t⟩
  · rfl
  · have hne := h records t hx
    simp only [orCards, if_neg hne]
    rw [Act.bind_ok (Act.pure_run records t)]
    rw [pureStep, someRecords, if_neg hne]

/-- Without records the lines of the text are raw cards. -/
theorem finish_of_nil {x : Act σ PyError (List Dict)} {text : Str} {s : σ} (h : x s = (.ok [], s)) :
    (do
      let found ← x
      let records ← orCards py (endpoint serve) text found
      pureStep (someRecords records)) s = play serve (lineScript py text) s := by
  rw [Act.bind_ok h, lineScript_eq]
  rfl

theorem documentsScript_eq {normal : Str → Act σ PyError (List Dict)} {script : Str → List CardTurn}
    (h : ∀ content, normal content = play serve (script content))
    (hne : ∀ content s records t, normal content s = (.ok records, t) → records ≠ []) (text : Str)
    (documents : List Json) (s : σ) :
    (do
      let found ← documentRecords py normal documents
      let records ← orCards py (endpoint serve) text found
      pureStep (someRecords records)) s = play serve (documentsScript py script text documents) s := by
  rcases henvelope : envelopeFiles documents with _ | files
  · have hfound : documentRecords py normal documents =
        pureStep (flattenAll py (documents.flatMap expand)) := by rw [documentRecords, henvelope]
    rw [hfound, documentsScript, henvelope]
    rcases hflat : flattenAll py (documents.flatMap expand) with e | _ | ⟨record, records⟩
    · rfl
    · exact finish_of_nil rfl
    · rw [finish_of_ne_nil]
      · show ((.ok (record :: records), s) : Except PyError (List Dict) × σ) =
          (.ok ((record :: records) ++ []), s)
        rw [List.append_nil]
      · intro found t hfound
        rw [← Except.ok.inj (Prod.mk.inj hfound).1]
        exact List.cons_ne_nil _ _
  · cases files with
    | arr items =>
      have hfound : documentRecords py normal documents = envelopeRecords normal items := by
        rw [documentRecords, henvelope]
      rw [hfound, documentsScript, henvelope]
      rcases items with _ | ⟨item, items⟩
      · exact finish_of_nil rfl
      · rw [finish_of_ne_nil, itemsScript_eq h]
        exact fun records t hrun => envelopeRecords_ne_nil hne hrun
    | _ =>
      rw [documentRecords, documentsScript, henvelope]
      rfl

/-- **A text is read by its script.** -/
theorem normalizeText_eq : ∀ (fuel : ℕ) (text : Str),
    normalizeText py dec (endpoint serve) fuel text = play serve (textScript py dec fuel text)
  | 0, _ => rfl
  | fuel + 1, text => by
    funext s
    unfold normalizeText textScript
    rcases hdocuments : jsonDocuments dec text with e | documents
    · rfl
    · rw [Act.bind_ok (pureStep_ok rfl s)]
      exact documentsScript_eq (normalizeText_eq fuel) (fun _ _ _ _ h => normalizeText_ne_nil h) text
        documents s

/-- **A source is normalised by its script.** -/
theorem normalize_eq (raw : Bytes) (s : σ) :
    Importer.normalize py dec (endpoint serve) raw s = (do
      let records ← play serve (sourceScript py dec raw)
      pureStep (unique py records)) s := by
  unfold Importer.normalize sourceScript
  rcases hraw : decodeSource raw with e | text
  · rfl
  · rw [Act.bind_ok (pureStep_ok rfl s), normalizeText_eq]

end Cloudx.Cloud.ImportScript
