import Cloudx.Cloud.RefreshRaces

/-! # Bundles under static maintenance

A file with an accounts list gives one record an account, and all of them have the file's path as
their key. `scan_auth_records` keeps the first of them, so the verdict on the first account with a
token decides on the whole file, whatever the others are. The decision does what one wants of it
exactly for the bundles whose accounts have all the same verdict. -/

namespace Cloudx.Cloud.RefreshBundles

open Cloudx.Lib.Fault Cloudx.Lib.Interleave
open Cloudx.Python.Text Cloudx.Python.Value Cloudx.Python.Dump
open Cloudx.Shared.Credential
open Cloudx.Cloud.Disk Cloudx.Cloud.Quarantine Cloudx.Cloud.Auth Cloudx.Cloud.AuthScan
open Cloudx.Cloud.Refresh Cloudx.Cloud.RefreshRaces Cloudx.Shared

variable {py : Py} {now : ℚ} {p : Path} {data : Dict}

/-! ### Verdicts -/

/-- A reason that is not harmless is permanent. -/
theorem permanent_of_harmful {r : AuthRecord}
    (h : harmless (staticFailureReason py now r).1 = false) : (staticFailureReason py now r).2 = true := by
  unfold staticFailureReason at h ⊢
  rcases hs : r.status with _ | reason
  · rw [hs] at h
    simp only at h ⊢
    split_ifs at h ⊢
    · exact absurd h (by decide)
    · exact absurd h (by decide)
    · rfl
    · rcases ht : parseTime py r.expiresAt with _ | t
      · rw [ht] at h
        simp only at h
        exact absurd h (by decide)
      · rw [ht] at h
        simp only at h ⊢
        split_ifs at h ⊢
        · rfl
        · exact absurd h (by decide)
  · rfl

/-- The verdict on an account of a document is permanent exactly if it is not harmless. -/
theorem permanent_iff {r : AuthRecord} (hr : r.status = .active) :
    (staticFailureReason py now r).2 = !harmless (staticFailureReason py now r).1 := by
  rcases hh : harmless (staticFailureReason py now r).1 with _ | _
  · rw [permanent_of_harmful hh]; rfl
  · unfold staticFailureReason at hh ⊢
    rw [hr] at hh ⊢
    simp only at hh ⊢
    split_ifs at hh ⊢
    · rfl
    · rfl
    · exact absurd hh (by decide)
    · rcases ht : parseTime py r.expiresAt with _ | t
      · rfl
      · rw [ht] at hh
        simp only at hh ⊢
        split_ifs at hh ⊢
        · exact absurd hh (by decide)
        · rfl

theorem bundleRecord_active {i : ℕ} {entry : Dict} {x : AuthRecord × Dict}
    (h : bundleRecord py p i entry = some x) : x.1.status = .active := by
  unfold bundleRecord at h
  simp only at h
  split_ifs at h
  rw [← Option.some.inj h]

/-- The verdict on a bundle entry does not depend on its place. -/
theorem bundleRecord_verdict (i j : ℕ) (entry : Dict) :
    (bundleRecord py p i entry).map (fun x => (staticFailureReason py now x.1).2) =
      (bundleRecord py p j entry).map fun x => (staticFailureReason py now x.1).2 := by
  unfold bundleRecord
  simp only
  split_ifs
  · rfl
  · rfl

/-- The verdicts on the accounts of a list are those on its entries. -/
theorem exists_verdict_iff {i : ℕ} {accounts : List Json} {b : Bool} :
    (∃ x ∈ bundleRecords py p i accounts, (staticFailureReason py now x.1).2 = b) ↔
      ∃ entry, .obj entry ∈ accounts ∧
        (bundleRecord py p 1 entry).map (fun x => (staticFailureReason py now x.1).2) = some b := by
  constructor
  · rintro ⟨x, hx, hb⟩
    obtain ⟨k, entry, hk, hrec⟩ := mem_bundleRecords.mp hx
    refine ⟨entry, List.mem_of_getElem? hk, ?_⟩
    rw [bundleRecord_verdict 1 (i + k), hrec, ← hb]
    rfl
  · rintro ⟨entry, hmem, hb⟩
    obtain ⟨k, hk⟩ := List.getElem?_of_mem hmem
    rw [bundleRecord_verdict 1 (i + k)] at hb
    obtain ⟨x, hrec, hx⟩ := Option.map_eq_some_iff.mp hb
    exact ⟨x, mem_bundleRecords.mpr ⟨k, entry, hk, hrec⟩, hx⟩

/-- The verdicts are the same in every order. -/
theorem exists_verdict_perm {accounts accounts' : List Json} (h : accounts'.Perm accounts) (b : Bool) :
    (∃ x ∈ bundleRecords py p 1 accounts', (staticFailureReason py now x.1).2 = b) ↔
      ∃ x ∈ bundleRecords py p 1 accounts, (staticFailureReason py now x.1).2 = b := by
  rw [exists_verdict_iff, exists_verdict_iff]
  simp only [h.mem_iff]

/-! ### The decision -/

/-- `refresh_auth_accounts` decides to quarantine the file at `p`: the record kept of it fails. -/
def Condemned (py : Py) (now : ℚ) (reads : List (Path × AuthRead)) (p : Path) : Prop :=
  ∃ records, scanAuthRecords py reads = .ok records ∧
    ∃ r ∈ records, r.path = p ∧ harmless (staticFailureReason py now r).1 = false

/-- What is moved was condemned. -/
theorem loop_condemned {others : ℕ → World → World} {cfg : Config} {opts : Options} {t : ℕ} {f : File} :
    ∀ {records : List AuthRecord} {c : Collected} {r : Maintenance},
      Event.moved t p f ∈ (refreshLoop others cfg py opts records c r).2.log →
        Event.moved t p f ∈ r.log ∨ ∃ rec ∈ records, rec.path = p ∧
          harmless (staticFailureReason py opts.now rec).1 = false
  | [], _, _, h => Or.inl h
  | record :: rest, c, r, h => by
    have hrest : ∀ {c' : Collected} {r' : Maintenance},
        Event.moved t p f ∈ (refreshLoop others cfg py opts rest c' r').2.log →
          Event.moved t p f ∈ r'.log ∨ ∃ rec ∈ record :: rest, rec.path = p ∧
            harmless (staticFailureReason py opts.now rec).1 = false := by
      intro c' r' h'
      rcases loop_condemned h' with h' | ⟨rec, hr, hrec⟩
      · exact Or.inl h'
      · exact Or.inr ⟨rec, List.mem_cons_of_mem _ hr, hrec⟩
    rw [refreshLoop] at h
    split_ifs at h with h1 h2
    · exact hrest h
    · have hone : ∀ {r1 : Maintenance}, r1 = (quarantineAccess others cfg py record
          (staticFailureReason py opts.now record).1 opts.nowText r).2 →
          Event.moved t p f ∈ r1.log → Event.moved t p f ∈ r.log ∨ record.path = p := by
        rintro r1 rfl hm
        rw [quarantineAccess, access_log, List.mem_append] at hm
        exact hm.imp_right fun hm => (mem_noteMoved hm).2.1.symm
      have hrec : record.path = p → ∃ rec ∈ record :: rest, rec.path = p ∧
          harmless (staticFailureReason py opts.now rec).1 = false := fun hp =>
        ⟨record, List.mem_cons_self, hp, by simpa using h1⟩
      rw [Act.bind_run] at h
      rcases hrun : quarantineAccess others cfg py record
        (staticFailureReason py opts.now record).1 opts.nowText r with ⟨e | target, r1⟩
      · rw [hrun] at h
        exact (hone (by rw [hrun]) h).imp_right hrec
      · rw [hrun] at h
        rcases hrest h with h' | h'
        · exact (hone (by rw [hrun]) h').imp_right hrec
        · exact Or.inr h'
    · exact hrest h

/-- The record of a file that was read once. -/
theorem mem_scan_of_read {reads : List (Path × AuthRead)} {records : List AuthRecord} {r : AuthRecord}
    {content : AuthRead} (hnd : (reads.map Prod.fst).Nodup) (hread : (p, content) ∈ reads)
    (h : scanAuthRecords py reads = .ok records) (hr : r ∈ records) (hp : r.path = p) :
    ∃ rs, fileRecords py p content = .ok rs ∧ r ∈ rs := by
  obtain ⟨content', rs, hmem, hrs, hr'⟩ := mem_scan h hr
  rw [hp] at hmem hrs
  have heq : (p, content') = (p, content) := List.inj_on_of_nodup_map hnd hmem hread rfl
  obtain ⟨-, rfl⟩ := Prod.mk.inj heq
  exact ⟨rs, hrs, hr'⟩

theorem fileRecords_payload {accounts : List Json} (hacc : get data (lit "accounts") = .arr accounts)
    (hne : payloadRecords py p data ≠ []) :
    fileRecords py p (.data data) = .ok ((payloadRecords py p data).map Prod.fst) := by
  rw [fileRecords]
  simp only [hacc]
  rw [if_pos hne]

/-! ### Another accounts list -/

theorem authTokens_accounts (d : Dict) (v : Json) :
    authTokens py (set d (lit "accounts") v) = authTokens py d := by
  simp (disch := decide) only [authTokens, authToken, get_set_ne]

theorem documentRecord_accounts (d : Dict) (v : Json) :
    documentRecord py p (set d (lit "accounts") v) = documentRecord py p d := by
  simp (disch := decide) only [documentRecord, expiryText, authTokens_accounts, get_set_ne,
    AgentIdentity.isAgentIdentity_accounts, AgentIdentity.isValid, AgentIdentity.normalize_accounts]

/-- The records of a file with no account in its list, whose order then does not matter. -/
theorem fileRecords_accounts {accounts accounts' : List Json}
    (hacc : get data (lit "accounts") = .arr accounts)
    (h : bundleRecords py p 1 accounts = []) (h' : bundleRecords py p 1 accounts' = []) :
    fileRecords py p (.data (set data (lit "accounts") (.arr accounts'))) =
      fileRecords py p (.data data) := by
  have hpay : (payloadRecords py p (set data (lit "accounts") (.arr accounts'))).map Prod.fst =
      (payloadRecords py p data).map Prod.fst := by
    unfold payloadRecords
    simp only [get_set_self, hacc, asList, h, h', ne_eq, not_true_eq_false, if_false]
    simp (disch := decide) only [authTokens_accounts, authAccountId, get_set_ne]
    split_ifs <;> rfl
  have hnil : payloadRecords py p (set data (lit "accounts") (.arr accounts')) = [] ↔
      payloadRecords py p data = [] := by
    rw [← List.map_eq_nil_iff (f := Prod.fst), hpay, List.map_eq_nil_iff]
  rw [fileRecords, fileRecords]
  simp only [get_set_self, hacc, ne_eq, hnil, hpay, documentRecord_accounts]

/-- The reads with another accounts list in the file at `p`. -/
def replaced (p : Path) (data : Dict) (accounts : List Json) (reads : List (Path × AuthRead)) :
    List (Path × AuthRead) :=
  reads.map fun x => if x.1 = p then (p, .data (set data (lit "accounts") (.arr accounts))) else x

theorem replaced_paths (accounts : List Json) (reads : List (Path × AuthRead)) :
    (replaced p data accounts reads).map Prod.fst = reads.map Prod.fst := by
  rw [replaced, List.map_map]
  refine List.map_congr_left fun x _ => ?_
  simp only [Function.comp_apply]
  split_ifs with h
  · exact h.symm
  · rfl

theorem allRecords_congr {g : Path × AuthRead → Path × AuthRead} :
    ∀ {reads : List (Path × AuthRead)}, (∀ x ∈ reads,
      fileRecords py (g x).1 (g x).2 = fileRecords py x.1 x.2) →
      allRecords py (reads.map g) = allRecords py reads
  | [], _ => rfl
  | x :: rest, h => by
    rw [List.map_cons, allRecords, allRecords, h x List.mem_cons_self,
      allRecords_congr fun y hy => h y (List.mem_cons_of_mem _ hy)]

theorem allRecords_ok_iff : ∀ {reads : List (Path × AuthRead)},
    (∃ rs, allRecords py reads = .ok rs) ↔ ∀ x ∈ reads, ∃ rs, fileRecords py x.1 x.2 = .ok rs
  | [] => by simp [allRecords]
  | (q, content) :: rest => by
    rw [List.forall_mem_cons, ← allRecords_ok_iff, allRecords]
    rcases hf : fileRecords py q content with e | first
    · simp [bind, Except.bind]
    rcases ha : allRecords py rest with e | more
    · simp [bind, Except.bind]
    · simp [bind, Except.bind, pure, Except.pure]

/-! ### The decision on a bundle -/

/-- **The decision on a bundle whose accounts have one verdict** is that verdict. -/
theorem condemned_bundle {reads : List (Path × AuthRead)} {accounts : List Json} {b : Bool}
    (hnd : (reads.map Prod.fst).Nodup) (hread : (p, .data data) ∈ reads)
    (hacc : get data (lit "accounts") = .arr accounts)
    (hne : bundleRecords py p 1 accounts ≠ [])
    (hb : ∀ x ∈ bundleRecords py p 1 accounts, (staticFailureReason py now x.1).2 = b) :
    Condemned py now reads p ↔
      (∀ x ∈ reads, ∃ rs, fileRecords py x.1 x.2 = .ok rs) ∧ b = true := by
  have hpay : payloadRecords py p data = bundleRecords py p 1 accounts := by
    rcases payloadRecords_cases py p data with ⟨h, -⟩ | ⟨h, -⟩
    · rw [h, hacc]; rfl
    · rw [hacc] at h; exact absurd h hne
  have hfile := @fileRecords_payload py p data accounts hacc (by rw [hpay]; exact hne)
  rw [hpay] at hfile
  have hverdict : ∀ r ∈ (bundleRecords py p 1 accounts).map Prod.fst,
      harmless (staticFailureReason py now r).1 = false ↔ b = true := by
    intro r hr
    obtain ⟨x, hx, rfl⟩ := List.mem_map.mp hr
    obtain ⟨_, _, -, hrec⟩ := mem_bundleRecords.mp hx
    have h1 := @permanent_iff py now x.1 (bundleRecord_active hrec)
    rw [hb x hx] at h1
    rw [h1]
    cases harmless (staticFailureReason py now x.1).1 <;> simp
  constructor
  · rintro ⟨records, hscan, r, hr, hp, hh⟩
    obtain ⟨rs, hrs, hmem⟩ := mem_scan_of_read hnd hread hscan hr hp
    rw [hfile, Except.ok.injEq] at hrs
    subst hrs
    obtain ⟨all, hall, -⟩ := scan_ok hscan
    exact ⟨allRecords_ok_iff.mp ⟨all, hall⟩, (hverdict r hmem).mp hh⟩
  · rintro ⟨hok, hbt⟩
    obtain ⟨all, hall⟩ := allRecords_ok_iff.mpr hok
    obtain ⟨x, hx⟩ := List.exists_mem_of_ne_nil _ hne
    obtain ⟨_, _, -, hrec⟩ := mem_bundleRecords.mp hx
    obtain ⟨hpath, hcodexx⟩ := bundleRecord_spec hrec
    have hxall : x.1 ∈ all :=
      (mem_allRecords hall).mpr ⟨_, hread, _, hfile, List.mem_map_of_mem hx⟩
    have hscan : ∃ records, scanAuthRecords py reads = .ok records := by
      rw [scanAuthRecords, hall]
      exact ⟨_, rfl⟩
    obtain ⟨records, hscan⟩ := hscan
    obtain ⟨all', hall', hperm⟩ := scan_ok hscan
    rw [hall, Except.ok.injEq] at hall'
    subst hall'
    obtain ⟨r, hr, hkey⟩ := @exists_keepFirst x.1 [] (all.insertionSort fun a b => rankLE a b)
      ((List.perm_insertionSort _ _).mem_iff.mpr hxall) (by simp)
    rw [dedupKey_of_empty hcodexx, hpath] at hkey
    have hrp := (dedupKey_eq_pathText hkey).2
    have hr' := hperm.mem_iff.mpr hr
    obtain ⟨rs, hrs, hmem⟩ := mem_scan_of_read hnd hread hscan hr' hrp
    rw [hfile, Except.ok.injEq] at hrs
    subst hrs
    exact ⟨records, hscan, r, hr', hrp, (hverdict r hmem).mpr hbt⟩

/-- **The decision on a bundle alone in its directory** is the verdict on its first account. -/
theorem condemned_alone {accounts : List Json} {x : AuthRecord × Dict} {rest : List (AuthRecord × Dict)}
    (hacc : get data (lit "accounts") = .arr accounts)
    (hrecs : bundleRecords py p 1 accounts = x :: rest) :
    Condemned py now [(p, .data data)] p ↔ (staticFailureReason py now x.1).2 = true := by
  have hspec : ∀ y ∈ x :: rest, y.1.path = p ∧ y.1.codexxAccount = [] ∧ y.1.status = .active := by
    intro y hy
    rw [← hrecs] at hy
    obtain ⟨_, _, -, hrec⟩ := mem_bundleRecords.mp hy
    exact ⟨(bundleRecord_spec hrec).1, (bundleRecord_spec hrec).2, bundleRecord_active hrec⟩
  have hpay : payloadRecords py p data = x :: rest := by
    rcases payloadRecords_cases py p data with ⟨h, -⟩ | ⟨h, -⟩
    · rw [h, hacc]; exact hrecs
    · rw [hacc] at h; exact absurd (hrecs.symm.trans h) (by simp)
  have hsorted : ((x :: rest).map Prod.fst).insertionSort (fun a b => rankLE a b) =
      (x :: rest).map Prod.fst := by
    refine List.Pairwise.insertionSort_eq (List.pairwise_iff_forall_sublist.mpr ?_)
    intro a b hab
    have hpath : ∀ c ∈ [a, b], c.path = p := by
      intro c hc
      obtain ⟨y, hy, rfl⟩ := List.mem_map.mp (hab.subset hc)
      exact (hspec y hy).1
    simp [rankLE, hpath a (by simp), hpath b (by simp)]
  have hkey : ∀ y ∈ x :: rest, dedupKey y.1 = pathText p := fun y hy => by
    rw [dedupKey_of_empty (hspec y hy).2.1, (hspec y hy).1]
  -- all others have the key of the first
  have hfirst : ∀ l : List (AuthRecord × Dict), (∀ y ∈ l, dedupKey y.1 = pathText p) →
      keepFirst [pathText p] (l.map Prod.fst) = [] := by
    intro l hl
    induction l with
    | nil => rfl
    | cons y l ih =>
      rw [List.map_cons, keepFirst, if_pos (by simp [hl y List.mem_cons_self])]
      exact ih fun z hz => hl z (List.mem_cons_of_mem _ hz)
  have hscan : scanAuthRecords py [(p, .data data)] = .ok [x.1] := by
    rw [scanAuthRecords, allRecords, fileRecords_payload hacc (by rw [hpay]; simp), hpay, allRecords]
    simp only [bind, Except.bind, pure, Except.pure, List.append_nil, Except.ok.injEq]
    rw [hsorted, List.map_cons, keepFirst, if_neg (by simp), hkey x List.mem_cons_self,
      hfirst rest fun y hy => hkey y (List.mem_cons_of_mem _ hy)]
    rfl
  have hperm := @permanent_iff py now x.1 (hspec x List.mem_cons_self).2.2
  unfold Condemned
  rw [hscan, hperm]
  constructor
  · rintro ⟨records, hrec, r, hr, -, hh⟩
    rw [← Except.ok.inj hrec, List.mem_singleton] at hr
    rw [← hr, hh]; rfl
  · intro h
    exact ⟨_, rfl, x.1, by simp, (hspec x List.mem_cons_self).1, by simpa using h⟩

/-! ### Runs -/

/-- What a run moves was condemned by its reads. -/
theorem refresh_condemned {others : ℕ → World → World} {cfg : Config} {opts : Options}
    {paths : List Path} {statePath : Path} {r : Maintenance} (hno : NoMoves r) {t : ℕ} {f : File}
    (h : Event.moved t p f ∈ (refreshAuthAccounts others cfg py opts paths statePath r).2.log) :
    ∃ reads r1, each (readAccess others .scan) paths r = (.ok reads, r1) ∧
      Condemned py opts.now reads p := by
  have hno1 : NoMoves (each (readAccess others .scan) paths r).2 := by
    refine each_keeps (fun q _ s hs t' p' f' => ?_) hno
    rw [readAccess, access_log, List.mem_append, not_or]
    exact ⟨hs t' p' f', by simp [noteRead]⟩
  unfold refreshAuthAccounts scan at h
  rw [Act.bind_run, Act.bind_run] at h
  rcases hreads : each (readAccess others .scan) paths r with ⟨e | reads, r1⟩
  · rw [hreads] at h hno1; exact absurd h (hno1 t p f)
  rw [hreads] at h hno1
  simp only [lift_run] at h
  rcases hscan : scanAuthRecords py reads with e | records
  · rw [hscan] at h; exact absurd h (hno1 t p f)
  rw [hscan] at h
  simp only [Act.bind_run] at h
  have hlog2 : (access others (silent : ℕ → World → World → List Event)
      (observe fun w => readPrivateJson w statePath) r1).2.log = r1.log := by
    rw [access_log, silent, List.append_nil]
  rcases hstate : access others (silent : ℕ → World → World → List Event)
    (observe fun w => readPrivateJson w statePath) r1 with ⟨e | state, r2⟩
  · rw [hstate] at h hlog2
    simp only at h hlog2
    rw [hlog2] at h; exact absurd h (hno1 t p f)
  rw [hstate] at h hlog2
  simp only at h hlog2
  refine ⟨reads, r1, rfl, records, hscan, ?_⟩
  have hloop : Event.moved t p f ∈ (refreshLoop others cfg py opts records
      ⟨asDict (get state (lit "accounts")), [], []⟩ r2).2.log := by
    rcases hres : refreshLoop others cfg py opts records
      ⟨asDict (get state (lit "accounts")), [], []⟩ r2 with ⟨e | result, r3⟩
    · rw [hres] at h; exact h
    rw [hres] at h
    simp only at h ⊢
    split_ifs at h with happly
    · rw [Act.bind_run] at h
      rcases hwrite : access others (silent : ℕ → World → World → List Event)
        (atomicWriteJson py (fun _ => false) statePath
          (set state (lit "accounts") (.obj result.accounts))) r3 with ⟨e | u, r4⟩ <;>
      · rw [hwrite] at h
        have := congrArg (fun x => x.2.log) hwrite
        rw [access_log, silent, List.append_nil] at this
        exact this ▸ h
    · exact h
  rcases loop_condemned hloop with hm | hm
  · rw [hlog2] at hm; exact absurd hm (hno1 t p f)
  · exact hm

/-- While nobody else writes, the scan reads what is on the disk. -/
theorem quiet_reads {paths : List Path} {w : World} {reads : List (Path × AuthRead)} {r : Maintenance}
    (h : each (readAccess quiet .scan) paths ⟨w, 0, []⟩ = (.ok reads, r)) {content : AuthRead}
    (hp : p ∈ paths) (hread : readAuthJson w p = .ok content) : (p, content) ∈ reads := by
  have hspec := each_spec (I := fun s : Maintenance => s.world = w)
    (Q := fun q (x : Path × AuthRead) (_ : Maintenance) => (readAuthJson w q).map (q, ·) = .ok x)
    (fun q s hs => hs) ?_ (fun _ _ _ _ hq => hq) rfl h
  · obtain ⟨i, hi, rfl⟩ := List.getElem_of_mem hp
    have hlen : i < reads.length := by rw [← hspec.length_eq]; exact hi
    have := hspec.get hi hlen
    simp only [List.get_eq_getElem] at this
    rw [hread] at this
    have hget : (paths[i], content) = reads[i] := Except.ok.inj this
    rw [hget]
    exact List.getElem_mem hlen
  · intro q s x s' hs hx
    obtain ⟨hres, -⟩ := Prod.mk.inj hx
    rw [observe_run, quiet, hs] at hres
    exact hres

/-! ### Bundles -/

/-- A file with an account that is not dead stays in place: no quiet run moves it. -/
def SparesAlive (py : Py) (now : ℚ) (p : Path) (data : Dict) : Prop :=
  (∃ x ∈ payloadRecords py p data, (staticFailureReason py now x.1).2 = false) →
    ∀ cfg (opts : Options) (files : Listing cfg.authDir) statePath w, opts.now = now →
      p ∈ files.paths → readAuthJson w p = .ok (.data data) → ∀ t f, Event.moved t p f ∉
        (refreshAuthAccounts quiet cfg py opts files.paths statePath ⟨w, 0, []⟩).2.log

/-- The decision on a file is the same for every order of its accounts list, whatever else was
read. -/
def OrderIrrelevant (py : Py) (now : ℚ) (p : Path) (data : Dict) (accounts : List Json) : Prop :=
  ∀ accounts', accounts'.Perm accounts → ∀ reads, (reads.map Prod.fst).Nodup →
    (p, .data data) ∈ reads →
      (Condemned py now (replaced p data accounts' reads) p ↔ Condemned py now reads p)

/-- All accounts of a document have the same verdict. -/
def Unanimous (py : Py) (now : ℚ) (p : Path) (data : Dict) : Prop :=
  ∀ x ∈ payloadRecords py p data, ∀ y ∈ payloadRecords py p data,
    (staticFailureReason py now x.1).2 = (staticFailureReason py now y.1).2

theorem payloadRecords_active {x : AuthRecord × Dict} (h : x ∈ payloadRecords py p data) :
    x.1.status = .active := by
  rcases payloadRecords_cases py p data with ⟨heq, -⟩ | ⟨hb, -⟩
  · rw [heq] at h
    obtain ⟨_, _, -, hrec⟩ := mem_bundleRecords.mp h
    exact bundleRecord_active hrec
  · unfold payloadRecords at h
    simp only at h
    rw [if_neg (not_not.mpr hb)] at h
    split_ifs at h
    · exact absurd h (by simp)
    · rw [List.mem_singleton.mp h]

theorem sparesAlive_of_unanimous {accounts : List Json}
    (hacc : get data (lit "accounts") = .arr accounts) (h : Unanimous py now p data) :
    SparesAlive py now p data := by
  rintro ⟨x, hx, hv⟩ cfg opts files statePath w rfl hp hread t f hm
  obtain ⟨reads, r1, hreads, records, hscan, r, hr, hrp, hh⟩ :=
    refresh_condemned (fun _ _ _ => by simp) hm
  have hnd : (reads.map Prod.fst).Nodup := by rw [(reads_log hreads).1]; exact files.nodup
  obtain ⟨rs, hrs, hmem⟩ := mem_scan_of_read hnd (quiet_reads hreads hp hread) hscan hr hrp
  rw [fileRecords_payload hacc (List.ne_nil_of_mem hx), Except.ok.injEq] at hrs
  subst hrs
  obtain ⟨y, hy, rfl⟩ := List.mem_map.mp hmem
  have := permanent_of_harmful hh
  rw [← h x hx y hy, hv] at this
  exact absurd this (by simp)

theorem orderIrrelevant_of_unanimous {accounts : List Json}
    (hacc : get data (lit "accounts") = .arr accounts) (h : Unanimous py now p data) :
    OrderIrrelevant py now p data accounts := by
  intro accounts' hperm reads hnd hread
  have hother : ∀ x ∈ reads, x.1 = p → x = (p, .data data) := fun x hx hp =>
    List.inj_on_of_nodup_map hnd hx hread hp
  have hnd' : ((replaced p data accounts' reads).map Prod.fst).Nodup := by
    rw [replaced_paths]; exact hnd
  have hread' : (p, AuthRead.data (set data (lit "accounts") (.arr accounts'))) ∈
      replaced p data accounts' reads :=
    List.mem_map.mpr ⟨_, hread, by rw [if_pos rfl]⟩
  by_cases hnil : bundleRecords py p 1 accounts = []
  · -- no account in the list: the file gives the same record
    have hnil' : bundleRecords py p 1 accounts' = [] := by
      by_contra hne
      obtain ⟨x, hx⟩ := List.exists_mem_of_ne_nil _ hne
      obtain ⟨y, hy, -⟩ := (@exists_verdict_perm py now p _ _ hperm _).mp ⟨x, hx, rfl⟩
      rw [hnil] at hy
      exact absurd hy (by simp)
    have hall : allRecords py (replaced p data accounts' reads) = allRecords py reads := by
      refine allRecords_congr fun x hx => ?_
      split_ifs with hp
      · rw [hother x hx hp]
        exact fileRecords_accounts hacc hnil hnil'
      · rfl
    unfold Condemned scanAuthRecords
    rw [hall]
  · have hpay : payloadRecords py p data = bundleRecords py p 1 accounts := by
      rcases payloadRecords_cases py p data with ⟨h', -⟩ | ⟨h', -⟩
      · rw [h', hacc]; rfl
      · rw [hacc] at h'; exact absurd h' hnil
    obtain ⟨x, hx⟩ := List.exists_mem_of_ne_nil _ hnil
    have hb : ∀ y ∈ bundleRecords py p 1 accounts,
        (staticFailureReason py now y.1).2 = (staticFailureReason py now x.1).2 := by
      rw [Unanimous, hpay] at h
      exact fun y hy => h y hy x hx
    have hb' : ∀ y ∈ bundleRecords py p 1 accounts',
        (staticFailureReason py now y.1).2 = (staticFailureReason py now x.1).2 := by
      intro y hy
      obtain ⟨z, hz, hzy⟩ := (@exists_verdict_perm py now p _ _ hperm _).mp ⟨y, hy, rfl⟩
      rw [← hzy, hb z hz]
    have hne' : bundleRecords py p 1 accounts' ≠ [] := by
      obtain ⟨y, hy, -⟩ := (@exists_verdict_perm py now p _ _ hperm _).mpr ⟨x, hx, rfl⟩
      exact List.ne_nil_of_mem hy
    rw [condemned_bundle hnd hread hacc hnil hb,
      condemned_bundle hnd' hread' (get_set_self _ _ _) hne' hb']
    -- the file itself can be scanned in both orders
    refine and_congr_left fun _ => ?_
    have hfile : ∃ rs, fileRecords py p (.data data) = .ok rs :=
      ⟨_, fileRecords_payload hacc (by rw [hpay]; exact hnil)⟩
    have hfile' : ∃ rs, fileRecords py p
        (.data (set data (lit "accounts") (.arr accounts'))) = .ok rs := by
      refine ⟨_, fileRecords_payload (get_set_self _ _ _) ?_⟩
      rcases payloadRecords_cases py p (set data (lit "accounts") (.arr accounts')) with
        ⟨-, h'⟩ | ⟨h', -⟩
      · exact h'
      · rw [get_set_self] at h'; exact absurd h' hne'
    unfold replaced
    rw [List.forall_mem_map]
    refine forall₂_congr fun x hx => ?_
    split_ifs with hp
    · rw [hother x hx hp]
      exact iff_of_true hfile' hfile
    · rfl

/-- Any account of a bundle can be brought to its front. -/
theorem exists_front {accounts : List Json} {x : AuthRecord × Dict}
    (hx : x ∈ bundleRecords py p 1 accounts) :
    ∃ accounts' y rest, accounts'.Perm accounts ∧ bundleRecords py p 1 accounts' = y :: rest ∧
      (staticFailureReason py now y.1).2 = (staticFailureReason py now x.1).2 := by
  obtain ⟨entry, hmem, hb⟩ := (@exists_verdict_iff py now p 1 accounts _).mp ⟨x, hx, rfl⟩
  obtain ⟨y, hy, hv⟩ := Option.map_eq_some_iff.mp hb
  refine ⟨.obj entry :: accounts.erase (.obj entry), y,
    bundleRecords py p 2 (accounts.erase (.obj entry)), (List.perm_cons_erase hmem).symm, ?_, hv⟩
  rw [bundleRecords, hy]
  rfl

/-- **When the decision on a bundle is right.** Whatever the directory, a file with a living account
is left in place and the order of its accounts does not matter, exactly when all its accounts have
the same verdict. -/
theorem bundle_decision_iff (py : Py) (now : ℚ) (p : Path) (data : Dict) {accounts : List Json}
    (hacc : get data (lit "accounts") = .arr accounts) :
    SparesAlive py now p data ∧ OrderIrrelevant py now p data accounts ↔ Unanimous py now p data := by
  refine ⟨fun ⟨_, horder⟩ => ?_, fun h =>
    ⟨sparesAlive_of_unanimous hacc h, orderIrrelevant_of_unanimous hacc h⟩⟩
  rcases payloadRecords_cases py p data with ⟨heq, -⟩ | ⟨-, hlen, -⟩
  swap
  · intro x hx y hy
    obtain ⟨i, hi, rfl⟩ := List.getElem_of_mem hx
    obtain ⟨j, hj, rfl⟩ := List.getElem_of_mem hy
    have : i = j := by omega
    subst this; rfl
  rw [hacc] at heq
  -- alone in its directory the file is decided by whichever account comes first
  have hfront : ∀ x ∈ payloadRecords py p data, (Condemned py now [(p, .data data)] p ↔
      (staticFailureReason py now x.1).2 = true) := by
    intro x hx
    rw [heq] at hx
    obtain ⟨accounts', y, rest, hperm, hrecs, hv⟩ := @exists_front py now p accounts x hx
    have hsame := horder accounts' hperm [(p, .data data)] (by simp) (by simp)
    rw [← hsame, ← hv, ← condemned_alone (get_set_self data (lit "accounts") (.arr accounts')) hrecs]
    simp [replaced]
  intro x hx y hy
  rw [Bool.eq_iff_iff, ← hfront x hx, hfront y hy]

/-! ### A bundle with a dead first account -/

/-- An account with nothing but an ID token. -/
def deadEntry : Json :=
  .obj [(lit "credentials", .obj [(lit "id_token", .str (lit "i"))])]

/-- An account with a refresh token. -/
def aliveEntry : Json :=
  .obj [(lit "credentials", .obj [(lit "refresh_token", .str (lit "r"))])]

/-- A bundle of the two, the dead one first. -/
def mixedBundle : Dict := [(lit "accounts", .arr [deadEntry, aliveEntry])]

/-- The bundle as `/auth/a.json`. -/
def mixedDisk : World := ⟨Finmap.singleton samplePath (.file (jsonFile onePy true mixedBundle)),
  {[], sampleConfig.authDir}, none⟩

/-- The bundle is quarantined with its living account. -/
theorem mixed_bundle_moved : ¬ ∀ py now p data accounts,
    get data (lit "accounts") = .arr accounts →
      SparesAlive py now p data ∧ OrderIrrelevant py now p data accounts := by
  intro h
  have halive : ∃ x ∈ payloadRecords onePy samplePath mixedBundle,
      (staticFailureReason onePy 0 x.1).2 = false := by decide +kernel
  have hspare := (h onePy 0 samplePath mixedBundle [deadEntry, aliveEntry] rfl).1 halive
    sampleConfig sampleOptions sampleListing sampleState mixedDisk rfl (by decide) (by decide +kernel)
    2 (jsonFile onePy true mixedBundle)
  exact hspare (by decide +kernel)

/-- A bundle of two living accounts is left in place in both orders. -/
theorem bundle_decision_two :
    SparesAlive onePy 0 samplePath [(lit "accounts", .arr [aliveEntry, aliveEntry])] ∧
      OrderIrrelevant onePy 0 samplePath [(lit "accounts", .arr [aliveEntry, aliveEntry])]
        [aliveEntry, aliveEntry] :=
  (bundle_decision_iff onePy 0 samplePath _ rfl).mpr (by unfold Unanimous; decide +kernel)

end Cloudx.Cloud.RefreshBundles
