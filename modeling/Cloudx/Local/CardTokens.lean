import Cloudx.Local.DryRun
import Cloudx.Local.RawCards

/-! # The refresh tokens that a local import stores

A run of the import is the script of its sources and then the writes (`run_log`, `run_ok`). A record
made from an answer has the refresh token of the answer. After writes that succeed a file with the token
is there, or the file was there before and was taken for unchanged. -/

namespace Cloudx.Local.CardTokens

open Cloudx.Lib.Memo Cloudx.Lib.Store Cloudx.Lib.Rollback Cloudx.Lib.Fault Cloudx.Lib.Script
open Cloudx.Python.Text Cloudx.Python.Value Cloudx.Python.Dump
open Cloudx.Shared Cloudx.Shared.Credential Cloudx.Shared.Source Cloudx.Shared.TokenEndpoint
open Cloudx.Cloud.Importer (Request)
open Cloudx.Local.Import Cloudx.Local.Importer Cloudx.Local.ImportWrites Cloudx.Local.ImportResults
open Cloudx.Local.DryRun Cloudx.Local.RawCards

variable {σ : Type} {py : Py} {dec : Decoder}

/-! ### The refresh token of a record -/

/-- The refresh token of a flat record is that of its payload, without blanks at its ends. -/
theorem refresh_flatAuth {entry record : Dict} {label : Str} (h : flatAuth py entry label = .ok record) :
    get record (lit "refresh_token") =
      if AgentIdentity.isAgentIdentity py (payloadOf py entry) then .null
      else .str (authTokens py (payloadOf py entry)).refresh := by
  rcases flatAuth_ok h with ⟨hagent, hform⟩ | ⟨hagent, -, accessPayload, idPayload, -, -, rfl⟩
  · rw [if_pos hagent]
    exact hform.rest _ (by decide)
  · rw [if_neg (by simp [hagent]), get_flatRecord _ _ _ _ _ (by decide)]
    rfl

theorem refresh_stripped {entry record : Dict} {label token : Str}
    (h : flatAuth py entry label = .ok record)
    (htoken : get record (lit "refresh_token") = .str token) : strip token = token := by
  rw [refresh_flatAuth h] at htoken
  split_ifs at htoken
  rw [← Json.str.inj htoken]
  exact (stripped_authTokens py _).2.1

/-- **A refreshed card has the refresh token of the answer.** -/
theorem refreshed_successor {card : RawCardCredential} {reply : Reply} {record : Dict} {token : Str}
    (h : refreshed py card reply = .ok record) (hreply : reply.successor = some token) :
    get record (lit "refresh_token") = .str (strip token) := by
  obtain ⟨hne, raw, payload, rfl, htoken⟩ := successor_some hreply
  have hflat : flatAuth py (cardEntry card payload) (cardLabel card) = .ok record := by
    unfold refreshed at h
    dsimp only at h
    split_ifs at h
    exact h
  have hget : ∀ {k : Str}, k ∉ [lit "type", lit "email", lit "access_token", lit "refresh_token",
      lit "id_token"] → get (cardEntry card payload) k = .null := fun hk => get_of_not_mem hk
  have hnone : sub2apiPayload py (cardEntry card payload) = [] := by
    rw [sub2apiPayload, hget (by decide)]
  have hpayload : payloadOf py (cardEntry card payload) = cardEntry card payload := by
    rw [payloadOf, if_pos hnone]
  have hmode : AgentIdentity.isAgentIdentity py (cardEntry card payload) = false :=
    AgentIdentity.not_agent_of_mode (hget (by decide))
  have hrefresh : get (cardEntry card payload) (lit "refresh_token") = .str token := by
    have hor : get (cardEntry card payload) (lit "refresh_token") =
        pyOr (get payload (lit "refresh_token")) (.str card.refreshToken) := rfl
    rw [hor, htoken, pyOr, if_pos (by simpa [truthy] using hne)]
  rw [refresh_flatAuth hflat, hpayload, if_neg (by simp [hmode])]
  have htext : (authTokens py (cardEntry card payload)).refresh =
      py.text [.str token, .null, .null] := by
    show authToken py (cardEntry card payload) (lit "refresh_token") = _
    rw [authToken, hrefresh, hget (by decide), hget (by decide)]
    rfl
  rw [htext]
  exact congrArg Json.str (text_str py token)

/-! ### The records of a script -/

/-- A turn gives flat records, if it gives any. -/
def Plain (py : Py) : CardTurn → Prop
  | .give records => ∀ x ∈ records, ∃ entry, flatAuth py entry [] = .ok x.1
  | .stop _ => True
  | .ask _ accept => ∃ card hint, accept = fun reply =>
      (refreshed py card reply).map fun record => (record, hint)

theorem mem_hinted {source : SourceText} {total : ℕ} {x : Dict × Str} : ∀ {records : List Dict} {i : ℕ},
    x ∈ hinted source total i records → x.1 ∈ records
  | records, i, h => by
    obtain ⟨y, hy, rfl⟩ := List.mem_map.mp h
    have := List.mem_map_of_mem (f := Prod.fst) hy
    rwa [List.zipIdx_map_fst] at this

theorem plain_givenStep {source : SourceText} {records : Except PyError (List Dict)}
    (h : ∀ found, records = .ok found → ∀ flat ∈ found, ∃ entry, flatAuth py entry [] = .ok flat) :
    Plain py (givenStep source records) := by
  rcases records with e | found
  · trivial
  · exact fun x hx => h found rfl x.1 (mem_hinted hx)

theorem plain_cardSteps {source : SourceText} {total : ℕ} : ∀ {cards : List RawCardCredential} {i : ℕ},
    ∀ turn ∈ cardSteps py source total i cards, Plain py turn
  | [], _, turn, hturn => absurd hturn (by simp [cardSteps])
  | card :: rest, i, turn, hturn => by
    unfold cardSteps at hturn
    rcases List.mem_cons.mp hturn with rfl | hturn
    · split_ifs
      · exact ⟨card, _, rfl⟩
      · trivial
    · exact plain_cardSteps turn hturn

theorem plain_sourcesScript {dry : Bool} {sources : List SourceText} :
    ∀ turn ∈ sourcesScript py dec dry sources, Plain py turn := by
  intro turn hturn
  obtain ⟨source, -, hturn⟩ := List.mem_flatMap.mp hturn
  have hstop : ∀ {e : PyError}, turn ∈ [(.stop e : CardTurn)] → Plain py turn := fun h => by
    rw [List.mem_singleton.mp h]
    trivial
  unfold textScript at hturn
  split at hturn
  · exact hstop hturn
  · rw [List.mem_singleton.mp hturn]
    exact plain_givenStep fun found hfound flat hflat => mem_expandDocuments hfound hflat
  · split at hturn
    · exact hstop hturn
    · split_ifs at hturn
      · rw [List.mem_singleton.mp hturn]
        exact plain_givenStep fun found hfound flat hflat => mem_flatAll hfound hflat
      · exact plain_cardSteps turn hturn

/-- **What the sources give are flat records.** -/
theorem found_flat {serve : Server Request Reply σ} {dry : Bool} {sources : List SourceText} {s : σ}
    {found : List (Dict × Str)} (h : Agreed serve (sourcesScript py dec dry sources) s found) :
    ∀ x ∈ found, ∃ entry, flatAuth py entry [] = .ok x.1 := by
  intro x hx
  rcases h.found x hx with ⟨given, hturn, hmem⟩ | ⟨q, accept, reply, hturn, haccept⟩
  · exact plain_sourcesScript _ hturn x hmem
  · obtain ⟨card, hint, rfl⟩ := plain_sourcesScript _ hturn
    obtain ⟨record, hrecord, rfl⟩ := except_map_ok haccept
    unfold refreshed at hrecord
    split at hrecord
    · exact absurd hrecord (by simp)
    · exact absurd hrecord (by simp)
    · exact absurd hrecord (by simp)
    · split_ifs at hrecord
      split at hrecord
      · split_ifs at hrecord
        exact ⟨_, flatAuth_label hrecord []⟩
      · exact absurd hrecord (by simp)
      · exact absurd hrecord (by simp)
      · exact absurd hrecord (by simp)

/-- **The refresh token of every answer is that of a record.** -/
theorem found_successor {serve : Server Request Reply σ} {dry : Bool} {sources : List SourceText} {s : σ}
    {found : List (Dict × Str)} (h : Agreed serve (sourcesScript py dec dry sources) s found)
    {x : Request × Reply} (hx : x ∈ heard serve (sourcesScript py dec dry sources) s) {token : Str}
    (htoken : x.2.successor = some token) :
    ∃ y ∈ found, get y.1 (lit "refresh_token") = .str (strip token) := by
  obtain ⟨accept, y, hturn, haccept, hmem⟩ := h.accepted x hx
  obtain ⟨card, hint, rfl⟩ := plain_sourcesScript _ hturn
  obtain ⟨record, hrecord, rfl⟩ := except_map_ok haccept
  exact ⟨_, hmem, refreshed_successor hrecord htoken⟩

/-! ### When the records are stored -/

variable {fails : ImportWrites.Step → Bool} {opts : Options} {auth auth' : AuthDir}

/-- Number `i` of the written files passes its checks. -/
structure Passes (py : Py) (fails : ImportWrites.Step → Bool) (dir : Dir FileName File) (i : ℕ)
    (t : Target) : Prop where
  read : fails (.read i) = false
  compare : fails (.compare i) = false
  credential : fails (.credential i) = false
  bytes : (dir.lookup t.name).map File.bytes = some t.payload.bytes
  valid : isCredential py t.payload = true

theorem verifyFrom_step {dir : Dir FileName File} {t : Target} {rest : List Target} {i : ℕ} :
    verifyFrom py fails dir i (t :: rest) = .ok () ↔
      Passes py fails dir i t ∧ verifyFrom py fails dir (i + 1) rest = .ok () := by
  rw [verifyFrom]
  by_cases hread : fails (.read i) = true
  · rw [if_pos hread]
    exact iff_of_false (by simp) fun h => absurd h.1.read (by simp [hread])
  rw [if_neg hread]
  by_cases hcompare : fails (.compare i) = true ∨
      (dir.lookup t.name).map File.bytes ≠ some t.payload.bytes
  · rw [if_pos hcompare]
    refine iff_of_false (by simp) fun h => ?_
    exact hcompare.elim (fun hf => absurd h.1.compare (by simp [hf])) fun hne => hne h.1.bytes
  rw [if_neg hcompare]
  by_cases hcredential : fails (.credential i) = true ∨ (!isCredential py t.payload) = true
  · rw [if_pos hcredential]
    refine iff_of_false (by simp) fun h => ?_
    exact hcredential.elim (fun hf => absurd h.1.credential (by simp [hf]))
      fun hno => absurd h.1.valid (by simpa using hno)
  rw [if_neg hcredential]
  push Not at hcompare hcredential
  exact (and_iff_right ⟨by simpa using hread, by simpa using hcompare.1, by simpa using hcredential.1,
    hcompare.2, by simpa using hcredential.2⟩).symm

/-- **When the checks of the written files pass.** -/
theorem verifyFrom_ok_iff {dir : Dir FileName File} : ∀ {changes : List Target} {i : ℕ},
    verifyFrom py fails dir i changes = .ok () ↔
      ∀ j t, changes[j]? = some t → Passes py fails dir (i + j) t
  | [], i => iff_of_true rfl (by simp)
  | t :: rest, i => by
    rw [verifyFrom_step, @verifyFrom_ok_iff dir rest (i + 1)]
    constructor
    · rintro ⟨hfirst, hrest⟩ j u hu
      rcases j with _ | j
      · rw [← Option.some.inj hu]
        exact hfirst
      · have := hrest j u hu
        rwa [Nat.add_right_comm] at this
    · intro hall
      refine ⟨hall 0 t rfl, fun j u hu => ?_⟩
      have := hall (j + 1) u hu
      rwa [← Nat.add_assoc, Nat.add_right_comm] at this

/-- What the import of some records needs, with the records it keeps, their files and the states of
their targets. -/
structure Storable (py : Py) (fails : ImportWrites.Step → Bool) (opts : Options) (auth : AuthDir)
    (records unique : List (Dict × Str)) (plans : List PlannedFile) (states : List Target) : Prop where
  planned : planImport py opts records = .ok (unique, plans)
  directory : auth ≠ .blocked
  lock : fails .lock = false
  checked : checkedStates py fails opts.force auth plans = .ok states
  alone : ∀ t ∈ changesOf states, ∀ u ∈ changesOf states, u.name = t.name →
    u.payload.bytes = t.payload.bytes
  steps : ∀ i < (changesOf states).length, fails (.write i) = false ∧ fails (.read i) = false ∧
    fails (.compare i) = false ∧ fails (.credential i) = false

/-- After all writes each name holds the file of a change of that name. -/
theorem lookup_writes {dir : Dir FileName File} {changes : List Target}
    (hall : (writes fails changes dir).1 = true) {t : Target} (ht : t ∈ changes) :
    ∃ u ∈ changes, u.name = t.name ∧ (writes fails changes dir).2.2.lookup t.name = some u.payload := by
  have hcompleted : (writes fails changes dir).2.1 = changes.map toWrite := perform_all _ 0 dir hall
  have hdone : toWrite t ∈ (writes fails changes dir).2.1 := by
    rw [hcompleted]
    exact List.mem_map_of_mem ht
  obtain ⟨v, hv, hname, hlook⟩ := lookup_perform _ _ _ hdone
  have hv' : v ∈ changes.map toWrite := by
    rw [← hcompleted]
    exact hv
  obtain ⟨u, hu, rfl⟩ := List.mem_map.mp hv'
  exact ⟨u, hu, hname, hlook⟩

/-- **When the writes of some changes succeed.** -/
theorem attempt_ok_iff {dir : Dir FileName File} {changes : List Target}
    (hvalid : ∀ t ∈ changes, isCredential py t.payload = true) :
    attempt py fails changes dir = .ok () ↔
      (∀ i < changes.length, fails (.write i) = false ∧ fails (.read i) = false ∧
        fails (.compare i) = false ∧ fails (.credential i) = false) ∧
      ∀ t ∈ changes, ∀ u ∈ changes, u.name = t.name → u.payload.bytes = t.payload.bytes := by
  have hdone : (writes fails changes dir).1 = true ↔
      ∀ j < (changes.map toWrite).length, fails (.write (0 + j)) = false :=
    perform_done (changes.map toWrite) 0 dir
  simp only [Nat.zero_add, List.length_map] at hdone
  unfold attempt
  by_cases hall : (writes fails changes dir).1 = true
  swap
  · rw [if_neg hall]
    exact iff_of_false (by simp) fun h => hall (hdone.mpr fun i hi => (h.1 i hi).1)
  rw [if_pos hall, verifyFrom_ok_iff]
  simp only [Nat.zero_add]
  constructor
  · intro h
    have hpasses : ∀ t ∈ changes, ((writes fails changes dir).2.2.lookup t.name).map File.bytes =
        some t.payload.bytes := by
      intro t ht
      obtain ⟨i, hi, rfl⟩ := List.getElem_of_mem ht
      exact (h i _ (List.getElem?_eq_getElem hi)).bytes
    refine ⟨fun i hi => ?_, fun t ht u hu hname => ?_⟩
    · have hpass := h i _ (List.getElem?_eq_getElem hi)
      exact ⟨hdone.mp hall i hi, hpass.read, hpass.compare, hpass.credential⟩
    · have hbytes := hpasses t ht
      rw [← hname, hpasses u hu] at hbytes
      exact Option.some.inj hbytes
  · rintro ⟨hsteps, halone⟩ i t hi
    obtain ⟨hlt, rfl⟩ := List.getElem?_eq_some_iff.mp hi
    obtain ⟨-, hread, hcompare, hcredential⟩ := hsteps i hlt
    have ht : changes[i] ∈ changes := List.getElem_mem hlt
    obtain ⟨u, hu, hname, hlook⟩ := lookup_writes hall ht
    exact ⟨hread, hcompare, hcredential, by rw [hlook, Option.map_some, halone _ ht u hu hname],
      hvalid _ ht⟩

/-- **When the import of some records succeeds.** -/
theorem completeImport_ok_iff {records : List (Dict × Str)} (hchars : AlnumChars opts.isalnum)
    (hflat : ∀ x ∈ records, ∃ entry, flatAuth py entry [] = .ok x.1) :
    (∃ report, (completeImport py fails opts false records auth).1 = .ok report) ↔
      ∃ unique plans states, Storable py fails opts auth records unique plans states := by
  unfold completeImport
  rcases hplan : planImport py opts records with e | ⟨unique, plans⟩
  · refine iff_of_false (by simp) ?_
    rintro ⟨unique, plans, states, h⟩
    exact absurd (hplan.symm.trans h.planned) (by simp)
  have hsound := sound_of_flat hchars hflat hplan
  simp only [Bool.false_eq_true, if_false]
  have hmap : ∀ x : Except PyError Counts, (∃ report, (x.map fun counts =>
      (⟨records.length, records.length - unique.length, counts⟩ : Report)) = .ok report) ↔
        ∃ counts, x = .ok counts := by
    rintro (e | counts)
    · exact iff_of_false (by simp [Except.map]) (by simp)
    · exact iff_of_true ⟨_, rfl⟩ ⟨_, rfl⟩
  rw [hmap]
  by_cases hblocked : auth = .blocked
  · subst hblocked
    exact iff_of_false (by simp [writePlansWith]) fun ⟨_, _, _, h⟩ => h.directory rfl
  have hlocked : writePlansWith py fails opts.force plans auth =
      underLock py fails opts.force plans auth := by
    rcases auth with _ | _ | ⟨others, files⟩
    · rfl
    · exact absurd rfl hblocked
    · rfl
  rw [hlocked]
  unfold underLock
  by_cases hf : fails .lock = true
  · rw [if_pos hf]
    exact iff_of_false (by simp) fun ⟨_, _, _, h⟩ => absurd h.lock (by simp [hf])
  rw [if_neg hf]
  have hsame : ∀ {unique' plans' states}, Storable py fails opts auth records unique' plans' states →
      unique' = unique ∧ plans' = plans := by
    intro unique' plans' states h
    have := h.planned
    rw [hplan] at this
    obtain ⟨h1, h2⟩ := Prod.mk.inj (Except.ok.inj this)
    exact ⟨h1.symm, h2.symm⟩
  rcases hstates : checkedStates py fails opts.force auth plans with e | states
  · refine iff_of_false (by simp) ?_
    rintro ⟨unique', plans', states, h⟩
    obtain ⟨rfl, rfl⟩ := hsame h
    exact absurd (hstates.symm.trans h.checked) (by simp)
  have hcredential : ∀ t ∈ changesOf states, isCredential py t.payload = true := by
    intro t ht
    obtain ⟨-, plan, hmem, hfit⟩ := mem_changesOf (checkedStates_ok hstates).1 ht
    rw [hfit.payload]
    exact (hsound plan hmem).credential
  have hattempt : attempt py fails (changesOf states) auth.files = .ok () ↔ _ :=
    attempt_ok_iff hcredential
  simp only [carryOut]
  rcases hrun : attempt py fails (changesOf states) auth.files with e | ⟨⟩
  · refine iff_of_false (by simp) ?_
    rintro ⟨unique', plans', states', h⟩
    obtain ⟨rfl, rfl⟩ := hsame h
    rw [← Except.ok.inj (hstates.symm.trans h.checked)] at h
    rw [hattempt.mpr ⟨h.steps, h.alone⟩] at hrun
    exact absurd hrun (by simp)
  · obtain ⟨hsteps, halone⟩ := hattempt.mp hrun
    exact iff_of_true ⟨_, rfl⟩
      ⟨unique, plans, states, hplan, hblocked, by simpa using hf, hstates, halone, hsteps⟩

/-! ### The tokens that are stored -/

/-- What an import that succeeds has done. -/
theorem completeImport_written {records : List (Dict × Str)} {report : Report}
    (h : completeImport py fails opts false records auth = (.ok report, auth')) :
    ∃ unique plans states counts, planImport py opts records = .ok (unique, plans) ∧
      checkedStates py fails opts.force auth plans = .ok states ∧
      Written py fails auth auth' states counts := by
  unfold completeImport at h
  rcases hplan : planImport py opts records with e | ⟨unique, plans⟩
  · rw [hplan] at h
    exact absurd (Prod.mk.inj h).1 (by simp)
  rw [hplan] at h
  simp only [Bool.false_eq_true, if_false] at h
  obtain ⟨hresult, hauth⟩ := Prod.mk.inj h
  obtain ⟨counts, hcounts, -⟩ := except_map_ok hresult
  obtain ⟨-, states, hstates, hw⟩ := writePlansWith_ok (Prod.ext hcounts hauth)
  exact ⟨unique, plans, states, counts, rfl, hstates, hw⟩

section Written
variable {unique : List (Dict × Str)} {plans : List PlannedFile} {states : List Target} {counts : Counts}
  {records : List (Dict × Str)}

/-- Each change is written for a record. -/
theorem record_of_change (hchars : AlnumChars opts.isalnum)
    (hplan : planImport py opts records = .ok (unique, plans))
    (hstates : checkedStates py fails opts.force auth plans = .ok states) {t : Target}
    (ht : t ∈ changesOf states) : ∃ x ∈ unique, t.payload = jsonFile py false x.1 := by
  obtain ⟨-, plan, hmem, hfit⟩ := mem_changesOf (checkedStates_ok hstates).1 ht
  obtain ⟨x, hx, hpay, -⟩ := forall₂_mem_right (planFiles_ok hchars (planImport_ok hplan).2) plan hmem
  exact ⟨x, hx, hfit.payload.trans hpay⟩

/-- **What is there after the writes**, for each kept record: the file of a record that is written like
it, or a file with its document, which was there before. -/
theorem lookup_record (hchars : AlnumChars opts.isalnum)
    (hplan : planImport py opts records = .ok (unique, plans))
    (hstates : checkedStates py fails opts.force auth plans = .ok states)
    (hw : Written py fails auth auth' states counts) {x : Dict × Str} (hx : x ∈ unique) :
    (∃ n, ∃ y ∈ unique, auth'.files.lookup n = some (jsonFile py false y.1) ∧
      (jsonFile py false y.1).bytes = (jsonFile py false x.1).bytes) ∨
    ∃ n f, auth.files.lookup n = some f ∧ canonicalJson py f = .ok (jsonFile py false x.1).bytes := by
  obtain ⟨plan, hmem, hpay, -⟩ :=
    forall₂_mem_left (planFiles_ok hchars (planImport_ok hplan).2) x hx
  obtain ⟨t, ht, hfit⟩ := forall₂_mem_left (checkedStates_ok hstates).1 plan hmem
  have hpayload : t.payload = jsonFile py false x.1 := hfit.payload.trans hpay
  rcases hchanged : t.unchanged with _ | _
  · left
    have hmem : t ∈ changesOf states := List.mem_filter.mpr ⟨ht, by simp [hchanged]⟩
    obtain ⟨u, hu, -, hlook⟩ := lookup_change hw hmem
    obtain ⟨y, hy, huy⟩ := record_of_change hchars hplan hstates hu
    obtain ⟨i, hi, hget⟩ := List.getElem_of_mem hmem
    have hchange : (changesOf states)[i]? = some t := by rw [List.getElem?_eq_getElem hi, hget]
    have hbytes := (verifyFrom_ok_iff.mp hw.verified i t hchange).bytes
    rw [hlook, Option.map_some, huy, hpayload] at hbytes
    exact ⟨t.name, y, hy, huy ▸ hlook, Option.some.inj hbytes⟩
  · right
    have hsame := hfit.unchanged
    rw [hchanged] at hsame
    rcases horiginal : auth.files.lookup t.name with _ | f
    · rw [horiginal] at hsame
      exact absurd hsame (by simp [sameJson])
    · rw [horiginal] at hsame
      exact ⟨t.name, f, horiginal, by rw [sameJson_some.mp hsame, hpay]⟩

/-- **Where the files after the writes come from**: each was there before, or is that of a record. -/
theorem lookup_after (hchars : AlnumChars opts.isalnum)
    (hplan : planImport py opts records = .ok (unique, plans))
    (hstates : checkedStates py fails opts.force auth plans = .ok states)
    (hw : Written py fails auth auth' states counts) {n : FileName} {f : File}
    (hf : auth'.files.lookup n = some f) :
    auth.files.lookup n = some f ∨ ∃ x ∈ unique, f = jsonFile py false x.1 := by
  by_cases hwritten : ∃ t ∈ changesOf states, t.name = n
  · right
    obtain ⟨t, ht, rfl⟩ := hwritten
    obtain ⟨u, hu, -, hlook⟩ := lookup_change hw ht
    obtain ⟨x, hx, hux⟩ := record_of_change hchars hplan hstates hu
    rw [hlook] at hf
    exact ⟨x, hx, (Option.some.inj hf).symm.trans hux⟩
  · left
    push Not at hwritten
    rwa [lookup_other hw hwritten] at hf

end Written

/-! ### Whole runs -/

section Run
variable {serve : Server Request Reply σ} {dry : Bool} {sources : List SourceText} {s : σ}

/-- The import of some sources with a record of all answers. -/
def run (py : Py) (dec : Decoder) (fails : ImportWrites.Step → Bool) (opts : Options) (dry : Bool)
    (serve : Server Request Reply σ) (sources : List SourceText) (s : σ) (auth : AuthDir) :
    Except PyError Report × (σ × List (Request × Reply)) × AuthDir :=
  RawCards.importSources py dec fails opts dry (logged serve) sources (s, []) auth

theorem run_eq : run py dec fails opts dry serve sources s auth =
    match (play serve (sourcesScript py dec dry sources) s).1 with
    | .error e => (.error e, ((play serve (sourcesScript py dec dry sources) s).2,
        heard serve (sourcesScript py dec dry sources) s), auth)
    | .ok records => ((completeImport py fails opts dry records auth).1,
        ((play serve (sourcesScript py dec dry sources) s).2,
          heard serve (sourcesScript py dec dry sources) s),
        (completeImport py fails opts dry records auth).2) := by
  rw [run, RawCards.importSources, collect_eq, play_logged]
  rcases (play serve (sourcesScript py dec dry sources) s).1 with e | records
  · rfl
  · rfl

/-- **The answers of a run are those that its script hears.** -/
theorem run_log : (run py dec fails opts dry serve sources s auth).2.1.2 =
    heard serve (sourcesScript py dec dry sources) s := by
  rw [run_eq]
  rcases (play serve (sourcesScript py dec dry sources) s).1 with e | records
  · rfl
  · rfl

/-- **A run that fails leaves the files as they were**, if nothing fails in the rollback. -/
theorem run_error (hrestore : ∀ i, fails (.restore i) = false) {e : PyError}
    (h : (run py dec fails opts dry serve sources s auth).1 = .error e) :
    (run py dec fails opts dry serve sources s auth).2.2.files = auth.files := by
  rw [run_eq] at h ⊢
  rcases hplay : (play serve (sourcesScript py dec dry sources) s).1 with e' | records
  · rfl
  rw [hplay] at h
  simp only [completeImport] at h ⊢
  rcases hplan : planImport py opts records with e' | ⟨unique, plans⟩
  · rfl
  rw [hplan] at h
  simp only at h ⊢
  by_cases hdry : dry = true
  · rw [if_pos hdry]
  rw [if_neg hdry] at h ⊢
  rcases hwrites : (writePlansWith py fails opts.force plans auth).1 with e' | counts
  · exact (all_or_nothing (Prod.ext hwrites rfl)).1 hrestore
  · rw [hwrites] at h
    exact absurd h (by simp [Except.map])

/-- **A run that succeeds** has found records and completed the import of these. -/
theorem run_ok {report : Report} (h : (run py dec fails opts dry serve sources s auth).1 = .ok report) :
    ∃ records, Agreed serve (sourcesScript py dec dry sources) s records ∧
      completeImport py fails opts dry records auth =
        (.ok report, (run py dec fails opts dry serve sources s auth).2.2) := by
  rw [run_eq] at h ⊢
  rcases hplay : (play serve (sourcesScript py dec dry sources) s).1 with e | records
  · rw [hplay] at h
    exact absurd h (by simp)
  · rw [hplay] at h
    exact ⟨records, play_ok_iff.mp hplay, Prod.ext h rfl⟩

/-- A run whose records can be stored succeeds. -/
theorem run_of {records : List (Dict × Str)} {report : Report}
    (hrecords : Agreed serve (sourcesScript py dec dry sources) s records)
    (hcomplete : (completeImport py fails opts dry records auth).1 = .ok report) :
    (run py dec fails opts dry serve sources s auth).1 = .ok report := by
  rw [run_eq, play_ok_iff.mpr hrecords]
  exact hcomplete

end Run

end Cloudx.Local.CardTokens
