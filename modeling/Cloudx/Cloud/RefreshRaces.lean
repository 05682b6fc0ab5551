import Cloudx.Cloud.QuarantineCalls
import Cloudx.Cloud.AuthScan
import Cloudx.Cloud.Refresh

/-! # Static maintenance among other writers

`refresh_auth_accounts` judges what it read and later moves what is there by then. No digest is
compared in between, so a file is moved with the bytes that were judged only if nobody else wrote it
after its read. The accesses of the run itself do no harm: reads change nothing, and no two records
of a scan have the same path, so a quarantine takes away only the file of its own record. -/

namespace Cloudx.Cloud.RefreshRaces

open Cloudx.Lib.Fault Cloudx.Lib.Interleave
open Cloudx.Python.Text Cloudx.Python.Value Cloudx.Python.Dump
open Cloudx.Shared.Credential
open Cloudx.Cloud.Disk Cloudx.Cloud.Quarantine Cloudx.Cloud.QuarantineCalls
open Cloudx.Cloud.Auth Cloudx.Cloud.AuthScan Cloudx.Cloud.Refresh

/-- The files a walk through the directory `root` yields: all below it, and none twice. -/
structure Listing (root : Path) where
  paths : List Path
  nodup : paths.Nodup
  below : ∀ p ∈ paths, root <+: p

/-- What `_iter_json_files` yields while nobody else writes. -/
def Listing.ofIter {py : Py} {root : Path} {w : World} {paths : List Path}
    (h : iterJsonFiles py root w = .ok paths) : Listing root :=
  ⟨paths, (iterJsonFiles_spec h).1, (iterJsonFiles_spec h).2⟩

variable {others : ℕ → World → World} {cfg : Config} {py : Py} {opts : Options} {r : Maintenance}

/-! ### The reads -/

/-- What the reads found of the file at `p` is there unless the others wrote it. -/
def Current (others : ℕ → World → World) (p : Path) (r : Maintenance) : Prop :=
  ∀ t found, Event.read .scan t p found ∈ r.log → Held others (fileAt · p) t found r

theorem Current.access {ε α : Type} {p : Path} {note : ℕ → World → World → List Event}
    {x : Act World ε α} (h : Current others p r)
    (hnote : ∀ t found, Event.read .scan t p found ∉
      note r.tick (others r.tick r.world) (x (others r.tick r.world)).2)
    (hx : fileAt (x (others r.tick r.world)).2 p = fileAt (others r.tick r.world) p) :
    Current others p (access others note x r).2 := by
  intro t found hmem
  rw [access_log, List.mem_append] at hmem
  exact (h t found (hmem.resolve_right (hnote t found))).access hx

/-- A read keeps what was found before and adds what it found. -/
theorem current_read {p q : Path} {purpose : Purpose} (h : Current others p r) :
    Current others p (readAccess others purpose q r).2 := by
  intro t found hmem
  rw [readAccess, access_log, List.mem_append, noteRead, List.mem_singleton] at hmem
  rcases hmem with hmem | hmem
  · exact (h t found hmem).access rfl
  · rw [Event.read.injEq] at hmem
    obtain ⟨-, rfl, rfl, rfl⟩ := hmem
    exact held_access rfl rfl

/-- The log of the reads. -/
theorem reads_log {paths : List Path} {reads : List (Path × AuthRead)} {r' : Maintenance}
    (h : each (readAccess others .scan) paths r = (.ok reads, r')) :
    reads.map Prod.fst = paths ∧ ∀ p ∈ paths, ∃ t found, Event.read .scan t p found ∈ r'.log := by
  have hspec := each_spec (I := fun _ => True) (Q := fun p (x : Path × AuthRead) (s : Maintenance) =>
      x.1 = p ∧ ∃ t found, Event.read .scan t p found ∈ s.log) (fun _ _ _ => trivial) ?_ ?_ trivial h
  · constructor
    · rw [← List.forall₂_eq_eq_eq, List.forall₂_map_left_iff]
      exact hspec.flip.imp fun x p hx => hx.1
    · intro p hp
      obtain ⟨i, hi, rfl⟩ := List.getElem_of_mem hp
      exact (hspec.get hi (by rw [← hspec.length_eq]; exact hi)).2
  · intro p s x s' _ hx
    obtain ⟨hres, rfl⟩ := Prod.mk.inj hx
    refine ⟨?_, s.tick, fileAt (others s.tick s.world) p, by simp [noteRead]⟩
    rw [observe_run] at hres
    rcases hread : readAuthJson (others s.tick s.world) p with e | content
    · rw [hread] at hres; exact absurd hres (by simp [Except.map])
    · rw [hread] at hres
      simp only [Except.map, Except.ok.injEq] at hres
      rw [← hres]
  · rintro p x q s ⟨h1, t, found, h2⟩
    exact ⟨h1, t, found, by rw [readAccess, access_log]; exact List.mem_append_left _ h2⟩

/-! ### The quarantines -/

/-- A quarantine changes no other file of the auth tree. -/
theorem quarantine_frame {w : World} {source p : Path} {reason movedAt : Str} (hp : cfg.authDir <+: p)
    (hne : p ≠ source) :
    fileAt (quarantineAuthRecord cfg py true steady source reason movedAt w).2 p = fileAt w p := by
  rcases quarantine_effect cfg py w source reason movedAt with ⟨-, h⟩ | ⟨_, _, -, -, -, h⟩
  · exact h p hp
  · rw [h p hp, if_neg hne]

/-- A move is of the file that is there when it happens. -/
theorem mem_noteMoved {p q : Path} {tick t : ℕ} {w w' : World} {f : File}
    (h : Event.moved t q f ∈ noteMoved p tick w w') : t = tick ∧ q = p ∧ fileAt w p = some f := by
  unfold noteMoved at h
  split at h
  · next g hg _ =>
    rw [List.mem_singleton, Event.moved.injEq] at h
    obtain ⟨rfl, rfl, rfl⟩ := h
    exact ⟨rfl, rfl, hg⟩
  · exact absurd h (by simp)

theorem not_read_noteMoved {p q : Path} {purpose : Purpose} {tick t : ℕ} {w w' : World}
    {found : Option File} : Event.read purpose t q found ∉ noteMoved p tick w w' := by
  unfold noteMoved
  split <;> simp

/-- The moves in the log of `r` are of the files that were found, unless the others wrote them. -/
def Faithful (others : ℕ → World → World) (r : Maintenance) : Prop :=
  ∀ t p f, Event.moved t p f ∈ r.log →
    (∃ t0 found, Event.read .scan t0 p found ∈ r.log) ∧
    ∀ t0 found, Event.read .scan t0 p found ∈ r.log → Calm others (fileAt · p) t0 (t + 1) →
      found = some f

/-- One quarantine. -/
theorem Faithful.quarantine (h : Faithful others r) {record : AuthRecord}
    (hcur : Current others record.path r)
    (hread : ∃ t0 found, Event.read .scan t0 record.path found ∈ r.log) (reason movedAt : Str) :
    Faithful others (quarantineAccess others cfg py record reason movedAt r).2 := by
  have hreads : ∀ {t0 q found}, Event.read .scan t0 q found ∈
      (quarantineAccess others cfg py record reason movedAt r).2.log ↔
        Event.read .scan t0 q found ∈ r.log := by
    intro t0 q found
    rw [quarantineAccess, access_log, List.mem_append, or_iff_left not_read_noteMoved]
  intro t p f hmem
  simp only [hreads]
  rw [quarantineAccess, access_log, List.mem_append] at hmem
  rcases hmem with hmem | hmem
  · exact h t p f hmem
  · obtain ⟨rfl, rfl, hf⟩ := mem_noteMoved hmem
    refine ⟨hread, fun t0 found h0 hc => ?_⟩
    rw [← (hcur t0 found h0).seen hc]
    exact hf

/-- The loop over the records. -/
theorem Faithful.loop : ∀ (records : List AuthRecord) (c : Collected) {r : Maintenance},
    (records.map AuthRecord.path).Nodup → (∀ rec ∈ records, cfg.authDir <+: rec.path) →
    (∀ rec ∈ records, Current others rec.path r ∧
      ∃ t0 found, Event.read .scan t0 rec.path found ∈ r.log) →
    Faithful others r → Faithful others (refreshLoop others cfg py opts records c r).2
  | [], _, _, _, _, _, h => h
  | record :: rest, c, r, hnd, hbelow, hcur, h => by
    rw [List.map_cons, List.nodup_cons] at hnd
    have hrest : ∀ rec ∈ rest, cfg.authDir <+: rec.path := fun rec hr =>
      hbelow rec (List.mem_cons_of_mem _ hr)
    have hcur' : ∀ rec ∈ rest, Current others rec.path r ∧
        ∃ t0 found, Event.read .scan t0 rec.path found ∈ r.log := fun rec hr =>
      hcur rec (List.mem_cons_of_mem _ hr)
    rw [refreshLoop]
    split_ifs with h1 h2
    · exact Faithful.loop rest _ hnd.2 hrest hcur' h
    · obtain ⟨hrec, hread⟩ := hcur record List.mem_cons_self
      have hq := @Faithful.quarantine others cfg py r h record hrec hread
        (staticFailureReason py opts.now record).1 opts.nowText
      rw [Act.bind_run]
      rcases hrun : quarantineAccess others cfg py record
        (staticFailureReason py opts.now record).1 opts.nowText r with ⟨e | target, r1⟩
      · rw [hrun] at hq; exact hq
      have hr1 : r1 = (quarantineAccess others cfg py record
          (staticFailureReason py opts.now record).1 opts.nowText r).2 := by rw [hrun]
      rw [hrun] at hq
      refine Faithful.loop rest _ hnd.2 hrest (fun rec hr => ⟨?_, ?_⟩) hq
      · -- the quarantine leaves the files of the other records alone
        have hne : rec.path ≠ record.path := fun he =>
          hnd.1 (he ▸ List.mem_map_of_mem (f := AuthRecord.path) hr)
        rw [hr1]
        exact (hcur' rec hr).1.access (fun _ _ => not_read_noteMoved)
          (quarantine_frame (hrest rec hr) hne)
      · obtain ⟨t0, found, h0⟩ := (hcur' rec hr).2
        exact ⟨t0, found, by rw [hr1, quarantineAccess, access_log]; exact List.mem_append_left _ h0⟩
    · exact Faithful.loop rest _ hnd.2 hrest hcur' h

/-! ### The whole run -/

/-- Reads move nothing. -/
def NoMoves (r : Maintenance) : Prop := ∀ t p f, Event.moved t p f ∉ r.log

theorem NoMoves.faithful (h : NoMoves r) : Faithful others r := fun t p f hm => absurd hm (h t p f)

theorem Faithful.of_log {r' : Maintenance} (h : Faithful others r) (hlog : r'.log = r.log) :
    Faithful others r' := by
  unfold Faithful
  rw [hlog]
  exact h

/-- After the scan every file it read is current, and nothing was moved. -/
theorem scan_current (others : ℕ → World → World) (paths : List Path) (w : World) :
    (∀ p, Current others p (each (readAccess others .scan) paths ⟨w, 0, []⟩).2) ∧
      NoMoves (each (readAccess others .scan) paths ⟨w, 0, []⟩).2 := by
  constructor
  · intro p
    exact each_keeps (fun q _ s hs => current_read hs) fun t found hm => absurd hm (by simp)
  · refine each_keeps (fun q _ s hs t p f => ?_) fun t p f => by simp
    rw [readAccess, access_log, List.mem_append, not_or]
    exact ⟨hs t p f, by simp [noteRead]⟩

/-- **A file that a static maintenance moves is the one it judged, unless others wrote it.** In every
run, every file taken to the archive was read by the scan, and if the others did not touch it from
that read to its move, what is moved is what was read. -/
theorem moved_was_scanned (others : ℕ → World → World) (cfg : Config) (py : Py) (opts : Options)
    (files : Listing cfg.authDir) (statePath : Path) (w : World) :
    Faithful others
      (refreshAuthAccounts others cfg py opts files.paths statePath ⟨w, 0, []⟩).2 := by
  obtain ⟨hcur, hno⟩ := scan_current others files.paths w
  unfold refreshAuthAccounts scan
  rw [Act.bind_run, Act.bind_run]
  rcases hreads : each (readAccess others .scan) files.paths ⟨w, 0, []⟩ with ⟨e | reads, r1⟩
  · rw [hreads] at hno; exact hno.faithful
  rw [hreads] at hno hcur
  obtain ⟨hpaths, hlog⟩ := reads_log hreads
  simp only [lift_run]
  rcases hscan : scanAuthRecords py reads with e | records
  · exact hno.faithful
  simp only
  have hnd := scan_nodup (hpaths ▸ files.nodup) hscan
  have hmem : ∀ rec ∈ records, rec.path ∈ files.paths := by
    intro rec hr
    obtain ⟨content, _, hx, -⟩ := mem_scan hscan hr
    rw [← hpaths]
    exact List.mem_map.mpr ⟨_, hx, rfl⟩
  -- reading the state file changes nothing
  rw [Act.bind_run]
  have hlog2 : (access others (silent : ℕ → World → World → List Event)
      (observe fun w => readPrivateJson w statePath) r1).2.log = r1.log := by
    rw [access_log, silent, List.append_nil]
  have hcur2 : ∀ p, Current others p (access others (silent : ℕ → World → World → List Event)
      (observe fun w => readPrivateJson w statePath) r1).2 := fun p =>
    (hcur p).access (fun _ _ => by simp [silent]) rfl
  rcases hstate : access others (silent : ℕ → World → World → List Event)
    (observe fun w => readPrivateJson w statePath) r1 with ⟨e | state, r2⟩
  · rw [hstate] at hlog2
    exact hno.faithful.of_log hlog2
  rw [hstate] at hlog2 hcur2
  simp only
  have hloop := @Faithful.loop others cfg py opts records
    ⟨asDict (get state (lit "accounts")), [], []⟩ r2 hnd
    (fun rec hr => files.below _ (hmem rec hr))
    (fun rec hr => ⟨hcur2 rec.path, by rw [hlog2]; exact hlog _ (hmem rec hr)⟩)
    (hno.faithful.of_log hlog2)
  rw [Act.bind_run]
  rcases hres : refreshLoop others cfg py opts records
    ⟨asDict (get state (lit "accounts")), [], []⟩ r2 with ⟨e | result, r3⟩
  · rw [hres] at hloop; exact hloop
  rw [hres] at hloop
  simp only
  split_ifs with happly
  · rw [Act.bind_run]
    rcases hwrite : access others (silent : ℕ → World → World → List Event)
      (atomicWriteJson py (fun _ => false) statePath
        (set state (lit "accounts") (.obj result.accounts))) r3 with ⟨e | u, r4⟩ <;>
    · refine hloop.of_log ?_
      have := congrArg (fun x => x.2.log) hwrite
      rw [access_log, silent, List.append_nil] at this
      exact this.symm
  · exact hloop

/-! ### A rewrite that goes unnoticed -/

/-- A credential with an access and a refresh token. -/
def freshFile : File := jsonFile onePy true [(lit "type", .str (lit "codex")),
  (lit "access_token", .str (lit "a.b.c")), (lit "refresh_token", .str (lit "r"))]

theorem oneDisk_files : iterJsonFiles onePy sampleConfig.authDir oneDisk = .ok [samplePath] := by
  decide +kernel

/-- The one file of a small auth directory. -/
def sampleListing : Listing sampleConfig.authDir := .ofIter oneDisk_files

/-- The options of an applied run. -/
def sampleOptions : Options := ⟨0, [], 3, true⟩

/-- `/refresh.json` -/
def sampleState : Path := [⟨lit "refresh.json", by decide⟩]

/-- The gateway writes a fresh credential to `/auth/a.json` just before the third access. -/
def rewriting : ℕ → World → World := fun k w =>
  if k = 2 then { w with nodes := w.nodes.insert samplePath (.file freshFile) } else w

/-- A file that was no JSON when it was read and a good credential when it was moved is moved. -/
theorem rewritten_file_moved : ¬ ∀ others cfg py opts (files : Listing cfg.authDir) statePath w,
    ∀ t p f t0 found,
      Event.moved t p f ∈
        (refreshAuthAccounts others cfg py opts files.paths statePath ⟨w, 0, []⟩).2.log →
      Event.read .scan t0 p found ∈
        (refreshAuthAccounts others cfg py opts files.paths statePath ⟨w, 0, []⟩).2.log →
      found = some f := by
  intro h
  have := h rewriting sampleConfig onePy sampleOptions sampleListing sampleState oneDisk 2 samplePath
    freshFile 0 (some (textFile "one")) (by decide +kernel) (by decide +kernel)
  exact absurd this (by decide +kernel)

/-- With nobody else writing, the file that was no JSON is moved as it was read. -/
theorem moved_was_scanned_quiet :
    Event.moved 2 samplePath (textFile "one") ∈ (refreshAuthAccounts quiet sampleConfig onePy
      sampleOptions sampleListing.paths sampleState ⟨oneDisk, 0, []⟩).2.log ∧
    ∀ found, Event.read .scan 0 samplePath found ∈ (refreshAuthAccounts quiet sampleConfig onePy
      sampleOptions sampleListing.paths sampleState ⟨oneDisk, 0, []⟩).2.log →
      found = some (textFile "one") := by
  have hmoved : Event.moved 2 samplePath (textFile "one") ∈ (refreshAuthAccounts quiet sampleConfig
      onePy sampleOptions sampleListing.paths sampleState ⟨oneDisk, 0, []⟩).2.log := by
    decide +kernel
  refine ⟨hmoved, fun found hread => ?_⟩
  exact (moved_was_scanned quiet sampleConfig onePy sampleOptions sampleListing sampleState oneDisk
    2 samplePath _ hmoved).2 0 found hread fun _ _ _ _ => rfl

end Cloudx.Cloud.RefreshRaces
