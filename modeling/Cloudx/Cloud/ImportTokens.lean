import Cloudx.Cloud.ImportScript
import Cloudx.Cloud.Reimport

/-! # The refresh tokens that a cloud import stores

A run of the import is the script of its source and then the transaction (`run_eq`). A record made from
an answer has the refresh token of the answer, and after a transaction that succeeds a file with the
token is there, unless two records share a target. `Storable` says when the transaction succeeds. -/

namespace Cloudx.Cloud.ImportTokens

open Cloudx.Lib.Memo Cloudx.Lib.Store Cloudx.Lib.Rollback Cloudx.Lib.Fault Cloudx.Lib.Script
open Cloudx.Python.Text Cloudx.Python.Value Cloudx.Python.Dump
open Cloudx.Shared Cloudx.Shared.Credential Cloudx.Shared.Source Cloudx.Shared.TokenEndpoint
open Cloudx.Cloud.Importer Cloudx.Cloud.ImportRecords Cloudx.Cloud.ImportScript

variable {σ : Type} {py : Py} {dec : Decoder}

/-! ### The refresh token of a record -/

theorem get_refresh_flatRecord (entry source : Dict) (tokens : Tokens) (accessClaims idClaims : Dict)
    (expired : Str) : get (flatRecord py entry source tokens accessClaims idClaims expired)
      (lit "refresh_token") = .str tokens.refresh := by
  unfold flatRecord
  rw [get_copyKeys_ne _ (by decide), get_setIf_ne _ _ (by decide), get_setIf_ne _ _ (by decide)]
  rfl

/-- The refresh token of a flat record is that of its source, without blanks at its ends. -/
theorem refresh_flatten {entry record : Dict} (h : flatten py entry = .ok record) :
    get record (lit "refresh_token") =
      if AgentIdentity.isAgentIdentity py (sourceOf entry) then .null
      else .str (authTokens py (sourceOf entry)).refresh := by
  by_cases hagent : AgentIdentity.isAgentIdentity py (sourceOf entry) = true
  · rw [if_pos hagent]
    exact (AgentIdentity.normalize_ok ((Reimport.flatten_agent hagent).mp h)).rest _ (by decide)
  · rw [if_neg hagent]
    obtain ⟨accessClaims, idClaims, expired, -, -, -, -, rfl⟩ :=
      Reimport.flatten_tokens h (by simpa using hagent)
    exact get_refresh_flatRecord _ _ _ _ _ _

theorem refresh_stripped {entry record : Dict} {token : Str} (h : flatten py entry = .ok record)
    (htoken : get record (lit "refresh_token") = .str token) : strip token = token := by
  rw [refresh_flatten h] at htoken
  split_ifs at htoken
  rw [← Json.str.inj htoken]
  exact (stripped_authTokens py _).2.1

/-- **A refreshed card has the refresh token of the answer.** -/
theorem refreshed_successor {card : Card} {reply : Reply} {record : Dict} {token : Str}
    (h : refreshed py card reply = .ok record) (hreply : reply.successor = some token) :
    get record (lit "refresh_token") = .str (strip token) := by
  obtain ⟨hne, raw, payload, rfl, htoken⟩ := successor_some hreply
  have hflat : flatten py (cardEntry card payload) = .ok record := h
  have hget : ∀ {k : Str}, k ∉ [lit "email", lit "access_token", lit "refresh_token", lit "id_token"] →
      get (cardEntry card payload) k = .null := fun hk => get_of_not_mem hk
  have hsource : sourceOf (cardEntry card payload) = cardEntry card payload := by
    rw [sourceOf, hget (by decide)]
  have hmode : AgentIdentity.isAgentIdentity py (cardEntry card payload) = false :=
    AgentIdentity.not_agent_of_mode (hget (by decide))
  have hrefresh : get (cardEntry card payload) (lit "refresh_token") = .str token := by
    have hor : get (cardEntry card payload) (lit "refresh_token") =
        pyOr (get payload (lit "refresh_token")) (.str card.refresh) := rfl
    rw [hor, htoken, pyOr, if_pos (by simpa [truthy] using hne)]
  rw [refresh_flatten hflat, hsource, if_neg (by simp [hmode])]
  have htext : (authTokens py (cardEntry card payload)).refresh =
      py.text [.str token, .null, .null] := by
    show authToken py (cardEntry card payload) (lit "refresh_token") = _
    rw [authToken, hrefresh, hget (by decide), hget (by decide)]
    rfl
  rw [htext]
  exact congrArg Json.str (text_str py token)

/-! ### The records of a script -/

/-- A turn gives flat records, if it gives any. -/
def Plain (py : Py) : CardTurn → Prop
  | .give records => ∀ record ∈ records, ∃ entry, flatten py entry = .ok record
  | .stop _ => True
  | .ask _ accept => ∃ card, accept = refreshed py card

theorem plain_lineScript {text : Str} : ∀ turn ∈ lineScript py text, Plain py turn := by
  intro turn hturn
  rcases List.mem_append.mp hturn with hturn | hturn
  · obtain ⟨line, -, rfl⟩ := List.mem_map.mp hturn
    unfold lineStep
    rcases cardOf line with e | _ | card
    · trivial
    · exact fun record hrecord => absurd hrecord (by simp)
    · show Plain py (cardStep py card)
      unfold cardStep
      split_ifs
      · exact ⟨card, rfl⟩
      · trivial
  · split_ifs at hturn
    · rw [List.mem_singleton.mp hturn]
      trivial
    · exact absurd hturn (by simp)

theorem plain_itemsScript {script : Str → List CardTurn}
    (h : ∀ content, ∀ turn ∈ script content, Plain py turn) : ∀ {items : List Json},
      ∀ turn ∈ itemsScript script items, Plain py turn
  | [], turn, hturn => absurd hturn (by simp [itemsScript])
  | item :: rest, turn, hturn => by
    unfold itemsScript at hturn
    rcases hcontent : contentOf item with _ | content
    · rw [hcontent, List.mem_singleton] at hturn
      rw [hturn]
      trivial
    · rw [hcontent] at hturn
      exact (List.mem_append.mp hturn).elim (h content turn) (plain_itemsScript h turn)

theorem plain_textScript : ∀ {fuel : ℕ} {text : Str}, ∀ turn ∈ textScript py dec fuel text, Plain py turn
  | 0, _, turn, hturn => by
    rw [textScript, List.mem_singleton] at hturn
    rw [hturn]
    trivial
  | fuel + 1, text, turn, hturn => by
    have hstop : ∀ {e : PyError}, turn ∈ [(.stop e : CardTurn)] → Plain py turn := fun h => by
      rw [List.mem_singleton.mp h]
      trivial
    unfold textScript at hturn
    split at hturn
    · exact hstop hturn
    · next documents _ =>
      have hdocuments : turn ∈ documentsScript py (textScript py dec fuel) text documents := hturn
      unfold documentsScript at hdocuments
      split at hdocuments
      · exact plain_lineScript turn hdocuments
      · exact plain_itemsScript (fun _ => plain_textScript) turn hdocuments
      · exact hstop hdocuments
      · split at hdocuments
        · exact hstop hdocuments
        · exact plain_lineScript turn hdocuments
        · next hflat =>
          rw [List.mem_singleton] at hdocuments
          rw [hdocuments]
          intro r hr
          exact Reimport.flattenAll_entries hflat r hr

theorem plain_sourceScript {raw : Bytes} : ∀ turn ∈ sourceScript py dec raw, Plain py turn := by
  intro turn hturn
  unfold sourceScript at hturn
  split at hturn
  · rw [List.mem_singleton.mp hturn]
    trivial
  · exact plain_textScript turn hturn

/-- **What a source gives are flat records.** -/
theorem found_flat {serve : Server Request Reply σ} {raw : Bytes} {s : σ} {found : List Dict}
    (h : Agreed serve (sourceScript py dec raw) s found) :
    ∀ record ∈ found, ∃ entry, flatten py entry = .ok record := by
  intro record hrecord
  rcases h.found record hrecord with ⟨given, hturn, hmem⟩ | ⟨q, accept, reply, hturn, haccept⟩
  · exact plain_sourceScript _ hturn record hmem
  · obtain ⟨card, rfl⟩ := plain_sourceScript _ hturn
    unfold refreshed at haccept
    split at haccept
    · exact ⟨_, haccept⟩
    · exact absurd haccept (by simp)

/-- **The refresh token of every answer is that of a record.** -/
theorem found_successor {serve : Server Request Reply σ} {raw : Bytes} {s : σ} {found : List Dict}
    (h : Agreed serve (sourceScript py dec raw) s found) {x : Request × Reply}
    (hx : x ∈ heard serve (sourceScript py dec raw) s) {token : Str}
    (htoken : x.2.successor = some token) :
    ∃ record ∈ found, get record (lit "refresh_token") = .str (strip token) := by
  obtain ⟨accept, record, hturn, haccept, hmem⟩ := h.accepted x hx
  obtain ⟨card, rfl⟩ := plain_sourceScript _ hturn
  exact ⟨record, hmem, refreshed_successor haccept htoken⟩

/-! ### When the records are stored -/

variable {fails : ImportRecords.Step → Bool} {force : Bool} {auth auth' : AuthDir}

/-- A record can be planned: nothing but a regular file is under its name, which can be read, and
without `force` it has the bytes of the record. -/
structure Admits (py : Py) (fails : ImportRecords.Step → Bool) (force : Bool) (auth : AuthDir) (i : ℕ)
    (x : FileName × Dict) : Prop where
  regular : x.1 ∉ auth.others
  reads : fails (.inspect i) = false
  free : force = false → auth.files.lookup x.1 = none ∨ stored py auth.files x

/-- A plan is made of the first record and of the others. -/
theorem planFrom_step {record : Dict} {rest : List Dict} {i : ℕ} {name : FileName}
    (hname : target py record = .ok name) :
    (∃ plan, planFrom py fails force auth i (record :: rest) = .ok plan) ↔
      Admits py fails force auth i (name, record) ∧
        ∃ plan, planFrom py fails force auth (i + 1) rest = .ok plan := by
  have hbind : ∀ {f : ℕ × List (Write FileName File) → ℕ × List (Write FileName File)},
      (∃ plan, (planFrom py fails force auth (i + 1) rest >>= fun more => pure (f more)) = .ok plan) ↔
        ∃ plan, planFrom py fails force auth (i + 1) rest = .ok plan := by
    intro f
    rcases planFrom py fails force auth (i + 1) rest with e | more
    · exact iff_of_false (by simp [bind, Except.bind]) (by simp)
    · exact iff_of_true ⟨_, rfl⟩ ⟨_, rfl⟩
  rw [planFrom, hname]
  show (∃ plan, (if name ∈ auth.others then _ else if fails (.inspect i) = true then _ else
    if stored py auth.files (name, record) then _ else _) = Except.ok plan) ↔ _
  by_cases hother : name ∈ auth.others
  · rw [if_pos hother]
    exact iff_of_false (by simp) fun h => h.1.regular hother
  rw [if_neg hother]
  by_cases hinspect : fails (.inspect i) = true
  · rw [if_pos hinspect]
    exact iff_of_false (by simp) fun h => absurd h.1.reads (by simp [hinspect])
  rw [if_neg hinspect]
  by_cases hstored : stored py auth.files (name, record)
  · rw [if_pos hstored, hbind]
    exact (and_iff_right ⟨hother, by simpa using hinspect, fun _ => .inr hstored⟩).symm
  rw [if_neg hstored]
  by_cases hfree : force = false → auth.files.lookup name = none
  · rw [if_neg, hbind]
    · exact (and_iff_right ⟨hother, by simpa using hinspect, fun hf => .inl (hfree hf)⟩).symm
    · rcases force with _ | _
      · simp [hfree rfl]
      · simp
  · push Not at hfree
    obtain ⟨hf, hsome⟩ := hfree
    rw [if_pos]
    · exact iff_of_false (by simp) fun h => (h.1.free hf).elim hsome hstored
    · rw [hf]
      simpa [Option.isSome_iff_ne_none] using hsome

/-- **When there is a plan**: all records have names, and each can be planned. -/
theorem planFrom_ok_iff : ∀ {records : List Dict} {i : ℕ},
    (∃ plan, planFrom py fails force auth i records = .ok plan) ↔
      ∃ targets, keyed (target py) records = .ok targets ∧
        ∀ j x, targets[j]? = some x → Admits py fails force auth (i + j) x
  | [], i => iff_of_true ⟨_, rfl⟩ ⟨[], rfl, by simp⟩
  | record :: rest, i => by
    have ih := @planFrom_ok_iff rest (i + 1)
    rcases hname : target py record with e | name
    · refine iff_of_false ?_ ?_
      · rintro ⟨plan, h⟩
        rw [planFrom, hname] at h
        exact absurd h (by simp [bind, Except.bind])
      · rintro ⟨targets, h, -⟩
        rw [keyed, hname] at h
        exact absurd h (by simp [bind, Except.bind])
    rw [planFrom_step hname, ih]
    constructor
    · rintro ⟨hfirst, more, hmore, hrest⟩
      refine ⟨(name, record) :: more, by rw [keyed, hname, hmore]; rfl, fun j x hx => ?_⟩
      rcases j with _ | j
      · rw [← Option.some.inj hx]
        exact hfirst
      · have := hrest j x hx
        rwa [Nat.add_right_comm] at this
    · rintro ⟨targets, htargets, hall⟩
      obtain ⟨name', hname', htargets⟩ := except_bind_ok htargets
      obtain ⟨more, hmore, htargets⟩ := except_bind_ok htargets
      rw [← Except.ok.inj htargets] at hall
      rw [Except.ok.inj (hname.symm.trans hname')]
      refine ⟨hall 0 _ rfl, more, hmore, fun j x hx => ?_⟩
      have := hall (j + 1) x hx
      rwa [← Nat.add_assoc, Nat.add_right_comm] at this

/-- What the transaction for some records needs, with the targets of these. -/
structure Storable (py : Py) (fails : ImportRecords.Step → Bool) (force : Bool) (auth : AuthDir)
    (kept : List Dict) (targets : List (FileName × Dict)) : Prop where
  directory : auth ≠ .blocked
  lock : fails .lock = false
  named : keyed (target py) kept = .ok targets
  admits : ∀ i x, targets[i]? = some x → Admits py fails force auth i x
  writes : ∀ i < (targets.filter fun x => ¬ stored py auth.files x).length, fails (.write i) = false

/-- **When the transaction succeeds.** -/
theorem storeRecords_ok_iff {kept : List Dict} :
    (∃ counts, (storeRecords py fails force false kept auth).1 = .ok counts) ↔
      ∃ targets, Storable py fails force auth kept targets := by
  by_cases hblocked : auth = .blocked
  · subst hblocked
    exact iff_of_false (by simp [storeRecords]) fun ⟨_, h⟩ => h.directory rfl
  have hlocked : storeRecords py fails force false kept auth =
      underLock py fails force false kept auth := by
    rcases auth with _ | _ | ⟨others, files⟩
    · rfl
    · exact absurd rfl hblocked
    · rfl
  rw [hlocked]
  unfold underLock
  by_cases hf : fails .lock = true
  · rw [if_pos hf]
    exact iff_of_false (by simp) fun ⟨_, h⟩ => absurd h.lock (by simp [hf])
  rw [if_neg hf]
  rcases hplan : planFrom py fails force auth 0 kept with e | ⟨skipped, plan⟩
  · refine iff_of_false (by simp) ?_
    rintro ⟨targets, h⟩
    obtain ⟨plan, hok⟩ := planFrom_ok_iff.mpr ⟨targets, h.named, fun j x hx => by
      rw [Nat.zero_add]
      exact h.admits j x hx⟩
    rw [hplan] at hok
    exact absurd hok (by simp)
  obtain ⟨targets, hkeyed, hadmits⟩ := planFrom_ok_iff.mp ⟨_, hplan⟩
  simp only [Nat.zero_add] at hadmits
  obtain ⟨targets', hplanned⟩ := planFrom_ok hplan
  rw [Except.ok.inj (hplanned.found.symm.trans hkeyed)] at hplanned
  have hdone : (perform (fun i => fails (.write i)) 0 plan auth.files).1 = true ↔ _ :=
    perform_done plan 0 auth.files
  simp only [Nat.zero_add, hplanned.writes, List.length_map] at hdone
  simp only [Bool.false_eq_true, if_false, carryOut, hplanned.writes]
  by_cases hwrites : ∀ j < (targets.filter fun x => ¬ stored py auth.files x).length,
      fails (.write j) = false
  · rw [if_pos (hdone.mpr hwrites)]
    exact iff_of_true ⟨_, rfl⟩ ⟨targets, hblocked, by simpa using hf, hkeyed, hadmits, hwrites⟩
  · rw [if_neg (mt hdone.mp hwrites)]
    refine iff_of_false (by simp) ?_
    rintro ⟨other, h⟩
    rw [Except.ok.inj (h.named.symm.trans hkeyed)] at h
    exact hwrites h.writes

/-! ### The tokens that are stored -/

/-- **What is there after a transaction**, for the target of each record: the file of a record with
that target, or the bytes of the record itself, which were there before. -/
theorem lookup_target {kept : List Dict} {counts : Counts} {targets : List (FileName × Dict)}
    (h : storeRecords py fails force false kept auth = (.ok counts, auth'))
    (htargets : keyed (target py) kept = .ok targets) {x : FileName × Dict} (hx : x ∈ targets) :
    (∃ y ∈ targets, y.1 = x.1 ∧ auth'.files.lookup x.1 = some (serialized py y.2)) ∨
      ∃ f, auth.files.lookup x.1 = some f ∧ f.bytes = (serialized py x.2).bytes := by
  obtain ⟨skipped, plan, targets', hplanned, -, hcompleted, hdir⟩ := storeRecords_written h
  rw [Except.ok.inj (hplanned.found.symm.trans htargets)] at hplanned
  by_cases hstored : stored py auth.files x
  · right
    unfold stored at hstored
    obtain ⟨f, hf, hbytes⟩ := Option.map_eq_some_iff.mp hstored
    exact ⟨f, hf, hbytes⟩
  · left
    have hw : writeOf py auth.files x ∈ (perform (fun i => fails (.write i)) 0 plan auth.files).2.1 := by
      rw [hcompleted]
      exact (hplanned.mem_writes _).mpr ⟨x, hx, hstored, rfl⟩
    obtain ⟨v, hv, hname, hlook⟩ := lookup_perform plan 0 auth.files hw
    rw [hcompleted] at hv
    obtain ⟨y, hy, -, rfl⟩ := (hplanned.mem_writes v).mp hv
    refine ⟨y, hy, hname, ?_⟩
    rw [hdir]
    exact hlook

/-- **Where the files after a transaction come from**: each was there before, or is that of a record. -/
theorem lookup_after {kept : List Dict} {counts : Counts}
    (h : storeRecords py fails force false kept auth = (.ok counts, auth')) {n : FileName} {f : File}
    (hf : auth'.files.lookup n = some f) :
    auth.files.lookup n = some f ∨ ∃ record ∈ kept, f = serialized py record := by
  obtain ⟨skipped, plan, targets, hplanned, -, hcompleted, hdir⟩ := storeRecords_written h
  by_cases hwritten : ∃ w ∈ plan, w.name = n
  · right
    obtain ⟨w, hw, rfl⟩ := hwritten
    obtain ⟨v, hv, -, hlook⟩ := lookup_perform plan 0 auth.files
      (show w ∈ (perform (fun i => fails (.write i)) 0 plan auth.files).2.1 by rw [hcompleted]; exact hw)
    rw [hcompleted] at hv
    obtain ⟨y, hy, -, rfl⟩ := (hplanned.mem_writes v).mp hv
    rw [hdir, hlook] at hf
    exact ⟨y.2, (mem_keyed hplanned.found hy).1, (Option.some.inj hf).symm⟩
  · left
    push Not at hwritten
    rw [hdir, lookup_perform_other plan 0 auth.files (by rw [hcompleted]; exact hwritten)] at hf
    exact hf

/-! ### Whole runs -/

section Run
variable {serve : Server Request Reply σ} {capability : Option Str} {dry : Bool} {raw : Bytes} {s : σ}

/-- The import of a source with a record of all answers. -/
def run (py : Py) (dec : Decoder) (fails : ImportRecords.Step → Bool) (force : Bool)
    (serve : Server Request Reply σ) (capability : Option Str) (dry : Bool) (raw : Bytes) (s : σ)
    (auth : AuthDir) : Except PyError ImportResult × (σ × List (Request × Reply)) × AuthDir :=
  importRecords py fails force dec (endpoint (logged serve)) capability dry raw (s, []) auth

theorem normalize_run : Importer.normalize py dec (endpoint (logged serve)) raw (s, []) =
    ((play serve (sourceScript py dec raw) s).1 >>= unique py,
      (play serve (sourceScript py dec raw) s).2, heard serve (sourceScript py dec raw) s) := by
  rw [normalize_eq, Act.bind_run, play_logged]
  rcases play serve (sourceScript py dec raw) s with ⟨e | records, t⟩
  · rfl
  · rfl

theorem run_eq : run py dec fails force serve capability dry raw s auth =
    match (play serve (sourceScript py dec raw) s).1 >>= unique py with
    | .error e => (.error e, ((play serve (sourceScript py dec raw) s).2,
        heard serve (sourceScript py dec raw) s), auth)
    | .ok kept => match checkCapability py capability kept with
      | .error e => (.error e, ((play serve (sourceScript py dec raw) s).2,
          heard serve (sourceScript py dec raw) s), auth)
      | .ok () => ((storeRecords py fails force dry kept auth).1.map (resultOf py dry raw),
          ((play serve (sourceScript py dec raw) s).2, heard serve (sourceScript py dec raw) s),
          (storeRecords py fails force dry kept auth).2) := by
  rw [run, importRecords, normalize_run]
  rcases (play serve (sourceScript py dec raw) s).1 >>= unique py with e | kept
  · rfl
  · rfl

/-- **The answers of a run are those that its script hears.** -/
theorem run_log : (run py dec fails force serve capability dry raw s auth).2.1.2 =
    heard serve (sourceScript py dec raw) s := by
  rw [run_eq]
  rcases (play serve (sourceScript py dec raw) s).1 >>= unique py with e | kept
  · rfl
  · dsimp only
    rcases checkCapability py capability kept with e | ⟨⟩
    · rfl
    · rfl

/-- **A run that fails leaves the files as they were**, if nothing fails in the rollback. -/
theorem run_error (hrestore : ∀ i, fails (.restore i) = false) {e : PyError}
    (h : (run py dec fails force serve capability dry raw s auth).1 = .error e) :
    (run py dec fails force serve capability dry raw s auth).2.2.files = auth.files := by
  rw [run_eq] at h ⊢
  rcases hkept : (play serve (sourceScript py dec raw) s).1 >>= unique py with e' | kept
  · rfl
  · rw [hkept] at h
    dsimp only at h ⊢
    rcases hcheck : checkCapability py capability kept with e' | ⟨⟩
    · rfl
    · rw [hcheck] at h
      dsimp only at h ⊢
      rcases hstore : (storeRecords py fails force dry kept auth).1 with e' | counts
      · exact storeRecords_error hrestore hstore
      · rw [hstore] at h
        exact absurd h (by simp [Except.map])

/-- **A run that succeeds** has found records, kept the first of each fingerprint and stored these. -/
theorem run_ok {result : ImportResult}
    (h : (run py dec fails force serve capability dry raw s auth).1 = .ok result) :
    ∃ found kept, Agreed serve (sourceScript py dec raw) s found ∧ unique py found = .ok kept ∧
      checkCapability py capability kept = .ok () ∧
      ∃ counts, storeRecords py fails force dry kept auth =
        (.ok counts, (run py dec fails force serve capability dry raw s auth).2.2) := by
  rw [run_eq] at h ⊢
  rcases hplay : (play serve (sourceScript py dec raw) s).1 with e | found
  · rw [hplay] at h
    exact absurd h (by simp [bind, Except.bind])
  rw [hplay] at h
  simp only [bind, Except.bind] at h ⊢
  rcases hkept : unique py found with e | kept
  · rw [hkept] at h
    exact absurd h (by simp)
  rw [hkept] at h
  dsimp only at h ⊢
  rcases hcheck : checkCapability py capability kept with e | ⟨⟩
  · rw [hcheck] at h
    exact absurd h (by simp)
  rw [hcheck] at h
  obtain ⟨counts, hcounts, -⟩ := except_map_ok h
  exact ⟨found, kept, play_ok_iff.mp hplay, hkept, hcheck, counts, Prod.ext hcounts rfl⟩

/-- A run whose records can be stored succeeds. -/
theorem run_of {found kept : List Dict} {counts : Counts}
    (hfound : Agreed serve (sourceScript py dec raw) s found) (hkept : unique py found = .ok kept)
    (hcheck : checkCapability py capability kept = .ok ())
    (hstore : (storeRecords py fails force dry kept auth).1 = .ok counts) :
    ∃ result, (run py dec fails force serve capability dry raw s auth).1 = .ok result := by
  rw [run_eq, play_ok_iff.mpr hfound]
  simp only [bind, Except.bind, hkept, hcheck, hstore]
  exact ⟨_, rfl⟩

end Run

end Cloudx.Cloud.ImportTokens
