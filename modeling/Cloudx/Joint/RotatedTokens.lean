import Cloudx.Cloud.ImportTokens
import Cloudx.Joint.Duplicates
import Cloudx.Local.CardTokens

/-! # Rotated refresh tokens

The token endpoint takes a refresh token back when it answers, so the token in its answer is the only
one that is left of the account. Both importers collect all records before they write the first one.
When one fails after an answer, the token of that answer is lost: nothing of the source is stored, and
what the endpoint has done is not undone. The cloud importer also refreshes cards in a dry run.

`tokens_kept_iff` says when no token is lost: no answer holds one, or the import succeeds. -/

namespace Cloudx.Joint.RotatedTokens

open Cloudx.Lib.Memo Cloudx.Lib.Store Cloudx.Lib.Rollback Cloudx.Lib.Script
open Cloudx.Python.Text Cloudx.Python.Value Cloudx.Python.Dump
open Cloudx.Shared Cloudx.Shared.Source Cloudx.Shared.TokenEndpoint
open Cloudx.Cloud Cloudx.Local
open Cloudx.Cloud.Importer (Request)
open Cloudx.Local.Importer (Options SourceText canonicalJson)
open Cloudx.Local.ImportResults (AlnumChars)

/-! ### The runs of both importers -/

/-- The requests of a run with their answers. -/
abbrev Log := List (Request × Reply)

/-- The auth directory with its regular files. -/
abbrev AuthDir := Found FileName File

/-- A call of `import_records` or of the local import, with the steps that fail in it. -/
inductive Call where
  | cloud (force : Bool) (capability : Option Str) (fails : ImportRecords.Step → Bool) (raw : Bytes)
  | client (opts : Options) (fails : ImportWrites.Step → Bool) (sources : List SourceText)

variable {σ : Type} (py : Py) (dec : Decoder) (serve : Server Request Reply σ)

/-- What a call hears, and the auth directory after it. -/
def Call.run (dry : Bool) (s : σ) (auth : AuthDir) : Call → Log × AuthDir
  | .cloud force capability fails raw =>
    let r := ImportTokens.run py dec fails force serve capability dry raw s auth
    (r.2.1.2, r.2.2)
  | .client opts fails sources =>
    let r := CardTokens.run py dec fails opts dry serve sources s auth
    (r.2.1.2, r.2.2)

/-- **Nothing is lost**: a dry run asks nothing, and a file has the refresh token of each answer. -/
structure Kept (dry : Bool) (log : Log) (dir : Dir FileName File) : Prop where
  silent : dry = true → log = []
  stored : ∀ x ∈ log, ∀ token, x.2.successor = some token → ∃ n f, dir.lookup n = some f ∧ Holds f token

/-! ### When nothing is lost -/

/-- What the endpoint is asked in the order of the source. -/
def Call.heard (dry : Bool) (s : σ) : Call → Log
  | .cloud _ _ _ raw => Lib.Script.heard serve (ImportScript.sourceScript py dec raw) s
  | .client _ _ sources => Lib.Script.heard serve (RawCards.sourcesScript py dec dry sources) s

/-- Whether the source has a card that is refreshed before anything in it is refused. -/
def Call.asks (dry : Bool) : Call → Bool
  | .cloud _ _ _ raw => Lib.Script.asks (ImportScript.sourceScript py dec raw)
  | .client _ _ sources => Lib.Script.asks (RawCards.sourcesScript py dec dry sources)

/-- The source is read to its end, and its records are these. -/
def Call.Reads (s : σ) : Call → List Dict → Prop
  | .cloud _ _ _ raw, records => Agreed serve (ImportScript.sourceScript py dec raw) s records
  | .client _ _ sources, records => ∃ found, records = found.map Prod.fst ∧
    Agreed serve (RawCards.sourcesScript py dec false sources) s found

/-- The source is read to its end, and its records can be stored. -/
def Call.Accepted (s : σ) (auth : AuthDir) : Call → Prop
  | .cloud force capability fails raw => ∃ found kept targets,
    Agreed serve (ImportScript.sourceScript py dec raw) s found ∧ Importer.unique py found = .ok kept ∧
    ImportRecords.checkCapability py capability kept = .ok () ∧
    ImportTokens.Storable py fails force auth kept targets
  | .client opts fails sources => ∃ found unique plans states,
    Agreed serve (RawCards.sourcesScript py dec false sources) s found ∧
    CardTokens.Storable py fails opts auth found unique plans states

/-- **The condition**: a dry run meets no card, and for any other call no answer holds a refresh token,
or all records can be stored and no token has blanks at its ends. -/
def Call.Clear (dry : Bool) (s : σ) (auth : AuthDir) (call : Call) : Prop :=
  if dry then call.asks py dec dry = false
  else (∀ x ∈ call.heard py dec serve dry s, x.2.successor = none) ∨
    call.Accepted py dec serve s auth ∧
      ∀ x ∈ call.heard py dec serve dry s, ∀ token, x.2.successor = some token → strip token = token

/-- `str.isalnum`, which the local import uses, holds of no slash and of no null character. -/
def Call.Alnum : Call → Prop
  | .cloud _ _ _ _ => True
  | .client opts _ _ => AlnumChars opts.isalnum

/-- No write of a rollback fails. -/
def Call.RollsBack : Call → Prop
  | .cloud _ _ fails _ => ∀ i, fails (.restore i) = false
  | .client _ fails _ => ∀ i, fails (.restore i) = false

/-- Records with the same short digest, and records that are written alike, have one refresh token. -/
structure ToldApart (records : List Dict) : Prop where
  digests : ∀ r ∈ records, ∀ r' ∈ records, ∀ p p', fingerprint py r = .ok p →
    fingerprint py r' = .ok p' → p.take 24 = p'.take 24 →
      get r (lit "refresh_token") = get r' (lit "refresh_token")
  texts : ∀ r ∈ records, ∀ r' ∈ records, (jsonFile py false r).bytes = (jsonFile py false r').bytes →
    get r (lit "refresh_token") = get r' (lit "refresh_token")

/-- A token that no file has: none is read as a document with it, or written as one. -/
structure Unknown (dir : Dir FileName File) (token : Str) : Prop where
  read : ∀ n f, dir.lookup n = some f → ¬ Holds f token
  written : ∀ n f record, dir.lookup n = some f → get record (lit "refresh_token") = .str token →
    f.bytes ≠ (jsonFile py true record).bytes ∧ canonicalJson py f ≠ .ok (jsonFile py false record).bytes

/-- The refresh tokens that the endpoint gives out are new. -/
def Fresh (log : Log) (dir : Dir FileName File) : Prop :=
  ∀ x ∈ log, ∀ token, x.2.successor = some token → Unknown py dir token

variable {py dec serve} {dry : Bool} {s : σ} {auth : AuthDir}

/-! ### One call -/

/-- **A call asks what its source says.** -/
theorem run_log (call : Call) :
    (call.run py dec serve dry s auth).1 = call.heard py dec serve dry s := by
  cases call with
  | cloud force capability fails raw => exact ImportTokens.run_log
  | client opts fails sources => exact CardTokens.run_log

theorem heard_nil_iff (call : Call) :
    call.heard py dec serve dry s = [] ↔ call.asks py dec dry = false := by
  cases call with
  | cloud force capability fails raw => exact Lib.Script.heard_nil_iff _ _
  | client opts fails sources => exact Lib.Script.heard_nil_iff _ _

/-- **A call succeeds or leaves the files as they were**, if nothing fails in the rollback. -/
theorem accepted_or_unchanged {call : Call} (hchars : call.Alnum) (hrolls : call.RollsBack) :
    call.Accepted py dec serve s auth ∨
      (call.run py dec serve false s auth).2.files = auth.files := by
  cases call with
  | cloud force capability fails raw =>
    rcases hrun : (ImportTokens.run py dec fails force serve capability false raw s auth).1
      with e | result
    · exact .inr (ImportTokens.run_error hrolls hrun)
    · obtain ⟨found, kept, hfound, hkept, hcheck, counts, hstore⟩ := ImportTokens.run_ok hrun
      obtain ⟨targets, hstorable⟩ :=
        ImportTokens.storeRecords_ok_iff.mp ⟨counts, congrArg Prod.fst hstore⟩
      exact .inl ⟨found, kept, targets, hfound, hkept, hcheck, hstorable⟩
  | client opts fails sources =>
    rcases hrun : (CardTokens.run py dec fails opts false serve sources s auth).1 with e | report
    · exact .inr (CardTokens.run_error hrolls hrun)
    · obtain ⟨found, hfound, hcomplete⟩ := CardTokens.run_ok hrun
      obtain ⟨unique, plans, states, hstorable⟩ :=
        (CardTokens.completeImport_ok_iff hchars (CardTokens.found_flat hfound)).mp
          ⟨report, congrArg Prod.fst hcomplete⟩
      exact .inl ⟨found, unique, plans, states, hfound, hstorable⟩

/-- What a call that succeeds has done with the refresh tokens: the answers' are in its records, those
of its records are in its files, if they are new, and only those are. -/
structure Stores (py : Py) (dec : Decoder) (serve : Server Request Reply σ) (s : σ) (auth : AuthDir)
    (call : Call) (records : List Dict) : Prop where
  reads : call.Reads py dec serve s records
  answers : ∀ x ∈ call.heard py dec serve false s, ∀ token, x.2.successor = some token →
    ∃ record ∈ records, get record (lit "refresh_token") = .str (strip token)
  files : ToldApart py records → ∀ record ∈ records, ∀ token,
    get record (lit "refresh_token") = .str token → Unknown py auth.files token →
      ∃ n f, (call.run py dec serve false s auth).2.files.lookup n = some f ∧ Holds f token
  only : ∀ n f, (call.run py dec serve false s auth).2.files.lookup n = some f →
    auth.files.lookup n = some f ∨ ∀ token, Holds f token → strip token = token

theorem stores_cloud {force : Bool} {capability : Option Str} {fails : ImportRecords.Step → Bool}
    {raw : Bytes} {result : ImportRecords.ImportResult}
    (hrun : (ImportTokens.run py dec fails force serve capability false raw s auth).1 = .ok result) :
    ∃ records, Stores py dec serve s auth (.cloud force capability fails raw) records := by
  obtain ⟨found, kept, hfound, hkept, -, counts, hstore⟩ := ImportTokens.run_ok hrun
  obtain ⟨targets, hstorable⟩ := ImportTokens.storeRecords_ok_iff.mp ⟨counts, congrArg Prod.fst hstore⟩
  obtain ⟨keys, hkeys, hfirsts⟩ := except_bind_ok hkept
  have hfirsts : (firsts keys).map Prod.snd = kept := Except.ok.inj hfirsts
  have hsub : ∀ r ∈ kept, r ∈ found := by
    intro r hr
    rw [← hfirsts] at hr
    obtain ⟨x, hx, rfl⟩ := List.mem_map.mp hr
    exact (mem_keyed hkeys (mem_of_mem_firsts hx)).1
  refine ⟨found, hfound, fun x hx token htoken => ImportTokens.found_successor hfound hx htoken,
    fun hapart record hrecord token htoken hunknown => ?_, fun n f hf => ?_⟩
  · -- the record that is kept for it has its fingerprint, and the file of that its target
    obtain ⟨k, hk, hprint, hmem, hprint'⟩ := exists_first hkeys hrecord
    have hkeptmem : k.2 ∈ kept := hfirsts ▸ List.mem_map_of_mem hk
    obtain ⟨x, hx, hxk, htarget⟩ := forall₂_mem_left (forall_keyed hstorable.named) k.2 hkeptmem
    have hxtoken : get x.2 (lit "refresh_token") = .str token := by
      rw [hxk, ← hapart.digests record hrecord k.2 hmem _ _ hprint hprint' rfl]
      exact htoken
    rcases ImportTokens.lookup_target hstore hstorable.named hx
      with ⟨y, hy, hname, hlook⟩ | ⟨f, hf, hbytes⟩
    · refine ⟨x.1, _, hlook, holds_jsonFile.mpr ?_⟩
      obtain ⟨hymem, hytarget⟩ := mem_keyed hstorable.named hy
      obtain ⟨p, hp, htext⟩ := ImportRecords.target_ok hytarget
      obtain ⟨q, hq, htext'⟩ := ImportRecords.target_ok (hxk ▸ htarget)
      have hsame : p.take 24 = q.take 24 :=
        ImportRecords.targetName_inj (htext.symm.trans ((congrArg FileName.text hname).trans htext'))
      rw [hapart.digests y.2 (hsub _ hymem) x.2 (hxk ▸ hmem) p q hp hq hsame]
      exact hxtoken
    · exact absurd hbytes (hunknown.written x.1 f x.2 hf hxtoken).1
  · rcases ImportTokens.lookup_after hstore hf with hbefore | ⟨record, hrecord, rfl⟩
    · exact .inl hbefore
    · right
      intro token htoken
      obtain ⟨entry, hentry⟩ := ImportTokens.found_flat hfound record (hsub record hrecord)
      exact ImportTokens.refresh_stripped hentry (holds_jsonFile.mp htoken)

theorem stores_client {opts : Options} {fails : ImportWrites.Step → Bool} {sources : List SourceText}
    {report : ImportWrites.Report} (hchars : AlnumChars opts.isalnum)
    (hrun : (CardTokens.run py dec fails opts false serve sources s auth).1 = .ok report) :
    ∃ records, Stores py dec serve s auth (.client opts fails sources) records := by
  obtain ⟨found, hfound, hcomplete⟩ := CardTokens.run_ok hrun
  obtain ⟨unique, plans, states, counts, hplan, hstates, hw⟩ :=
    CardTokens.completeImport_written hcomplete
  have hunique := (ImportResults.planImport_ok hplan).1
  obtain ⟨keys, hkeys, hfirsts⟩ := Duplicates.deduplicate_firsts hunique
  have hall : ((firsts keys).filter fun x => x.1 ∉ ([] : List Str)) = firsts keys :=
    List.filter_eq_self.mpr fun x _ => by simp
  rw [hall] at hfirsts
  have hsub : ∀ x ∈ unique, x.1 ∈ found.map Prod.fst := fun x hx =>
    List.mem_map_of_mem (Importer.mem_deduplicate hunique hx)
  refine ⟨found.map Prod.fst, ⟨found, rfl, hfound⟩, fun x hx token htoken => ?_,
    fun hapart record hrecord token htoken hunknown => ?_, fun n f hf => ?_⟩
  · obtain ⟨y, hy, hget⟩ := CardTokens.found_successor hfound hx htoken
    exact ⟨y.1, List.mem_map_of_mem hy, hget⟩
  · obtain ⟨z, hz, rfl⟩ := List.mem_map.mp hrecord
    obtain ⟨k, hk, hprint, hmem, hprint'⟩ := exists_first hkeys hz
    have hkept : k.2 ∈ unique := hfirsts ▸ List.mem_map_of_mem hk
    have hktoken : get k.2.1 (lit "refresh_token") = .str token := by
      rw [← hapart.digests z.1 hrecord k.2.1 (hsub _ hkept) _ _ hprint hprint' rfl]
      exact htoken
    rcases CardTokens.lookup_record hchars hplan hstates hw hkept with
      ⟨n, y, hy, hlook, hbytes⟩ | ⟨n, f, hf, hcanonical⟩
    · refine ⟨n, _, hlook, holds_jsonFile.mpr ?_⟩
      rw [hapart.texts y.1 (hsub _ hy) k.2.1 (hsub _ hkept) hbytes]
      exact hktoken
    · exact absurd hcanonical (hunknown.written n f k.2.1 hf hktoken).2
  · rcases CardTokens.lookup_after hchars hplan hstates hw hf with hbefore | ⟨x, hx, rfl⟩
    · exact .inl hbefore
    · right
      intro token htoken
      obtain ⟨entry, hentry⟩ := CardTokens.found_flat hfound x (Importer.mem_deduplicate hunique hx)
      exact CardTokens.refresh_stripped hentry (holds_jsonFile.mp htoken)

/-- **A call whose records can be stored stores their refresh tokens.** -/
theorem accepted_stores {call : Call} (hchars : call.Alnum) (h : call.Accepted py dec serve s auth) :
    ∃ records, Stores py dec serve s auth call records := by
  cases call with
  | cloud force capability fails raw =>
    obtain ⟨found, kept, targets, hfound, hkept, hcheck, hstorable⟩ := h
    obtain ⟨counts, hstore⟩ := ImportTokens.storeRecords_ok_iff.mpr ⟨targets, hstorable⟩
    obtain ⟨result, hrun⟩ := ImportTokens.run_of hfound hkept hcheck hstore
    exact stores_cloud hrun
  | client opts fails sources =>
    obtain ⟨found, unique, plans, states, hfound, hstorable⟩ := h
    obtain ⟨report, hcomplete⟩ := (CardTokens.completeImport_ok_iff hchars
      (CardTokens.found_flat hfound)).mpr ⟨unique, plans, states, hstorable⟩
    exact stores_client hchars (CardTokens.run_of hfound hcomplete)

/-- **When no rotated token is lost**: a call that meets the condition loses none, and a call that does
not loses one, unless its rollback fails. -/
theorem tokens_kept_iff {call : Call} (hchars : call.Alnum)
    (hapart : ∀ records, call.Reads py dec serve s records → ToldApart py records)
    (hfresh : Fresh py (call.heard py dec serve dry s) auth.files) :
    (call.Clear py dec serve dry s auth →
      Kept dry (call.run py dec serve dry s auth).1 (call.run py dec serve dry s auth).2.files) ∧
    (call.RollsBack →
      Kept dry (call.run py dec serve dry s auth).1 (call.run py dec serve dry s auth).2.files →
        call.Clear py dec serve dry s auth) := by
  rw [run_log]
  rcases dry with _ | _
  · refine ⟨fun hclear => ⟨fun h => absurd h (by simp), fun x hx token htoken => ?_⟩,
      fun hrolls hkept => ?_⟩
    · rcases hclear with hnone | ⟨haccepted, hplain⟩
      · rw [hnone x hx] at htoken
        exact absurd htoken (by simp)
      · obtain ⟨records, hstores⟩ := accepted_stores hchars haccepted
        obtain ⟨record, hrecord, hget⟩ := hstores.answers x hx token htoken
        rw [hplain x hx token htoken] at hget
        exact hstores.files (hapart records hstores.reads) record hrecord token hget
          (hfresh x hx token htoken)
    · by_cases hnone : ∀ x ∈ call.heard py dec serve false s, x.2.successor = none
      · exact .inl hnone
      right
      push Not at hnone
      obtain ⟨x, hx, hsome⟩ := hnone
      obtain ⟨token, htoken⟩ := Option.ne_none_iff_exists'.mp hsome
      rcases accepted_or_unchanged hchars hrolls with haccepted | hsame
      swap
      · obtain ⟨n, f, hf, hholds⟩ := hkept.stored x hx token htoken
        rw [hsame] at hf
        exact absurd hholds ((hfresh x hx token htoken).read n f hf)
      refine ⟨haccepted, fun y hy token' htoken' => ?_⟩
      obtain ⟨records, hstores⟩ := accepted_stores hchars haccepted
      obtain ⟨n, f, hf, hholds⟩ := hkept.stored y hy token' htoken'
      rcases hstores.only n f hf with hbefore | hstripped
      · exact absurd hholds ((hfresh y hy token' htoken').read n f hbefore)
      · exact hstripped token' hholds
  · have hsilent := @heard_nil_iff _ py dec serve true s call
    refine ⟨fun hclear => ?_, fun _ hkept => hsilent.mp (hkept.silent rfl)⟩
    have hnone := hsilent.mpr hclear
    exact ⟨fun _ => hnone, fun x hx => absurd hx (by rw [hnone]; simp)⟩

/-! ### Two cards with one token -/

/-- The answer with these tokens. -/
def answer (access refresh : Str) : Reply :=
  .body ⟨[], .value (.obj [(lit "access_token", .str access), (lit "refresh_token", .str refresh)])⟩

/-- An endpoint with its live refresh tokens: it takes the token of a request back and gives out the
next one, and refuses all others. -/
def rotating : Server Request Reply (List Str) := fun q live =>
  let next := q.refreshToken ++ lit ".1"
  if q.refreshToken ∈ live then (answer (lit "a.b.c") next, next :: live.erase q.refreshToken)
  else (.httpError 400, live)

/-- The refresh token of the card. -/
def oldToken : Str := lit "rt.old.value"

/-- The line of a card with this token. -/
def oldCard : Str := lit "card@example.test--------app_client----" ++ oldToken

/-- The decoder of texts that are no JSON. -/
def noJson : Decoder where
  loads _ := .jsonError
  rawDecode _ _ := .jsonError 0

/-- An interpreter with the digest of the tokens in the answer. -/
def rotatedPy : Py := tablePy [(utf8 (lit "a.b.c" ++ [0] ++ oldToken ++ lit ".1" ++ [0]),
  lit "99a11c1401707b80f509f89c3f4404cf05a4661106aaca3e06abc9a25984ca9c")] [] []

/-- The call of both importers for these lines, without a failing step. -/
def cloudCall (lines : List Str) : Call :=
  .cloud false none (fun _ => false) (utf8 ([10].intercalate lines))

def clientCall (lines : List Str) : Call :=
  .client ⟨false, [], fun _ => false, none⟩ (fun _ => false)
    [⟨[10].intercalate lines, lit "stdin", fun _ _ => []⟩]

/-- The run of a call where the directory is absent and the token of the card is live. -/
def rotatedRun (dry : Bool) (call : Call) : Log × AuthDir :=
  call.run rotatedPy noJson rotating dry [oldToken] .absent

/-- What the endpoint is asked for the card, and its answer. -/
def rotatedLog : Log :=
  [(⟨lit "app_client", oldToken⟩, answer (lit "a.b.c") (oldToken ++ lit ".1"))]

theorem successor_rotated :
    (answer (lit "a.b.c") (oldToken ++ lit ".1")).successor = some (oldToken ++ lit ".1") := by
  decide +kernel

/-- One card is refreshed, and its new token is stored. -/
theorem one_card_kept : (rotatedRun false (cloudCall [oldCard])).1 = rotatedLog ∧
    Kept false (rotatedRun false (cloudCall [oldCard])).1
      (rotatedRun false (cloudCall [oldCard])).2.files := by
  have hheard : (cloudCall [oldCard]).heard rotatedPy noJson rotating false [oldToken] = rotatedLog := by
    decide +kernel
  have hone : (play rotating (ImportScript.sourceScript rotatedPy noJson
      (utf8 ([10].intercalate [oldCard]))) [oldToken]).1.map List.length = .ok 1 := by decide +kernel
  have hapart : ∀ records, (cloudCall [oldCard]).Reads rotatedPy noJson rotating [oldToken] records →
      ToldApart rotatedPy records := by
    intro records hreads
    rw [play_ok_iff.mpr hreads] at hone
    obtain ⟨record, rfl⟩ := List.length_eq_one_iff.mp (Except.ok.inj hone)
    constructor
    · intro r hr r' hr' _ _ _ _ _
      rw [List.mem_singleton.mp hr, List.mem_singleton.mp hr']
    · intro r hr r' hr' _
      rw [List.mem_singleton.mp hr, List.mem_singleton.mp hr']
  have hfresh : Fresh rotatedPy ((cloudCall [oldCard]).heard rotatedPy noJson rotating false [oldToken])
      (Found.absent : AuthDir).files := by
    intro x _ token _
    have hempty : ∀ n, (Found.absent : AuthDir).files.lookup n = none := fun n => Finmap.lookup_empty n
    exact ⟨fun n f hf => absurd ((hempty n).symm.trans hf) (by simp),
      fun n f record hf => absurd ((hempty n).symm.trans hf) (by simp)⟩
  have haccepted : (cloudCall [oldCard]).Accepted rotatedPy noJson rotating [oldToken] .absent := by
    have hstored : (rotatedRun false (cloudCall [oldCard])).2.files ≠
        (Found.absent : AuthDir).files := by decide +kernel
    exact (@accepted_or_unchanged _ rotatedPy noJson rotating [oldToken] .absent (cloudCall [oldCard])
      trivial fun _ => rfl).resolve_right hstored
  have hplain : ∀ x ∈ (cloudCall [oldCard]).heard rotatedPy noJson rotating false [oldToken],
      ∀ token, x.2.successor = some token → strip token = token := by
    rw [hheard]
    intro x hx token htoken
    rw [List.mem_singleton.mp hx, successor_rotated] at htoken
    rw [← Option.some.inj htoken]
    decide +kernel
  have hkept := (@tokens_kept_iff _ rotatedPy noJson rotating false [oldToken] .absent
    (cloudCall [oldCard]) trivial hapart hfresh).1 (.inr ⟨haccepted, hplain⟩)
  exact ⟨(run_log _).trans hheard, hkept⟩

/-- A run that hears the answer first and leaves no file has lost the new token. -/
theorem not_kept_empty (dry : Bool) (call : Call)
    (hhead : (rotatedRun dry call).1.head? = rotatedLog.head?)
    (hdir : (rotatedRun dry call).2.files = ∅) :
    ¬ Kept dry (rotatedRun dry call).1 (rotatedRun dry call).2.files := by
  intro hkept
  have hmem : (⟨lit "app_client", oldToken⟩, answer (lit "a.b.c") (oldToken ++ lit ".1")) ∈
      (rotatedRun dry call).1 := List.mem_of_mem_head? hhead
  obtain ⟨n, f, hf, -⟩ := hkept.stored _ hmem (oldToken ++ lit ".1") successor_rotated
  rw [hdir] at hf
  exact absurd ((Finmap.lookup_empty n).symm.trans hf) (by simp)

/-- The new token of a card is lost when a later line is no card, when a later card is refused, and in a
dry run of the cloud importer. -/
theorem successors_lost :
    ¬ Kept false (rotatedRun false (cloudCall [oldCard, lit "x"])).1
      (rotatedRun false (cloudCall [oldCard, lit "x"])).2.files ∧
    ¬ Kept false (rotatedRun false (clientCall [oldCard, oldCard])).1
      (rotatedRun false (clientCall [oldCard, oldCard])).2.files ∧
    ¬ Kept true (rotatedRun true (cloudCall [oldCard])).1
      (rotatedRun true (cloudCall [oldCard])).2.files := by
  refine ⟨not_kept_empty _ _ ?_ ?_, not_kept_empty _ _ ?_ ?_, not_kept_empty _ _ ?_ ?_⟩
  all_goals decide +kernel

end Cloudx.Joint.RotatedTokens
