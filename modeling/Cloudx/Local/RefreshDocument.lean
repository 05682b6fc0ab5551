import Cloudx.Local.ArchiveFaults
import Cloudx.Local.Maintenance
import Cloudx.Python.Clock
import Cloudx.Shared.Trigger

/-! # A run of the local maintenance

`refresh_document`: the failures that need no probes are archived, the trigger is loaded, and if there is
one, the contexts of the auth directory are read and probed, the directory is scanned again, and the
candidates whose digest is still the same are archived. The trigger is consumed when the transport was
reachable or there were no accounts.

A run shares the directories and the trigger with everybody else. The archiving of some candidates holds
its lock and is one access. -/

namespace Cloudx.Local.RefreshDocument

open Cloudx.Lib.Store Cloudx.Lib.Fault Cloudx.Lib.Memo Cloudx.Lib.Threads Cloudx.Lib.Threads.Thread
open Cloudx.Python.Text Cloudx.Python.Value Cloudx.Python.Dump Cloudx.Python.Clock
open Cloudx.Shared.Http Cloudx.Shared.Receipt Cloudx.Shared.Trigger
open Cloudx.Local.Archive Cloudx.Local.ArchiveMoves Cloudx.Local.ArchiveFaults
open Cloudx.Local.Probe Cloudx.Local.Maintenance

/-- What a name was found to stand for. -/
abbrev Found := FileName × Option File

/-- The programs of the local maintenance. -/
abbrev Program := Thread (Site World) (Event FileName Found Summary) PyError

/-- The arguments of a run and its surroundings: the times, the HTTP behaviour, what the three listings of
the auth directory and the one of the failure directory yield meanwhile, and the steps that fail. -/
structure RunOptions where
  apply : Bool
  now : ℚ
  scanNow : ℚ
  nowText : Str
  movedAt : Str
  opener : Opener
  clock : Str → ℚ
  concurrency : ℤ
  scanned : World → List FileName
  listed : World → List FileName
  rescanned : World → List FileName
  receipts : World → List (FileName × Entry)
  sameDevice : Bool
  directFails : ArchiveStep → Bool
  fails : ArchiveStep → Bool
  consumeFails : ConsumeStep → Bool

/-- `sweepTriggerStatus` -/
inductive Outcome where
  | loaded (status : TriggerStatus)
  | consumed
  | retained
deriving DecidableEq

/-- The counts of the part before the trigger. -/
structure Direct where
  active : ℕ
  candidates : ℕ
  archived : ℕ
  rejected : ℕ
  stale : ℕ
deriving DecidableEq

/-- What a run returns. -/
structure Document where
  apply : Bool
  activeAuthFiles : ℕ
  eligibleForArchive : ℕ
  archived : ℕ
  rejectedFailureReceipts : ℕ
  staleFailureReceipts : ℕ
  sweepTriggered : Bool
  sweepTriggerStatus : Outcome
  sweep : Option Summary
deriving DecidableEq

/-- The files of some candidates that were in a directory before and are not after. -/
def taken (candidates : List ArchiveCandidate) (before after : Dir FileName File) :
    List (FileName × File) :=
  candidates.filterMap fun c =>
    match before.lookup c.record.path, after.lookup c.record.path with
    | some file, none => some (c.record.path, file)
    | _, _ => none

section

variable (py : Py) (opts : RunOptions)

/-- `scan_active_auth` on the names that a listing yields. -/
def scanFiles (listing : World → List FileName) (now : ℚ) : DiskProgram World (List AuthRecord) := do
  let names ← look (fun _ => none) fun w => .ok (listing w)
  let reads ← each (fun name => look (fun _ => none) fun w => .ok (name, w.auth.lookup name)) names
  lift (scanActiveAuth py now reads)

/-- `archive_candidates`, if it is to be applied. -/
def archiveApplied (fails : ArchiveStep → Bool) (candidates : List ArchiveCandidate) (movedAt : Str) :
    Act World PyError ℕ :=
  if opts.apply then archiveCandidates py opts.sameDevice fails candidates movedAt else pure 0

/-- The part before the trigger. -/
def archiveDirect : DiskProgram World Direct := do
  let records ← scanFiles py opts.scanned opts.now
  let receipts ← look (fun _ => none) fun w => .ok (opts.receipts w)
  let found ← lift (runtimeCandidates py opts.now records receipts)
  let candidates := directCandidates records found.candidates
  let archived ← atomically silent (archiveApplied py opts opts.directFails candidates opts.nowText)
  return ⟨records.length, candidates.length, archived, found.rejected, found.stale⟩

/-- `auth_dir.glob("*.json")` of the contexts. -/
def listFiles : Program (List FileName) :=
  look (fun s => some (.listed (opts.listed s.disk))) fun s => .ok (opts.listed s.disk)

/-- `_safe_bytes` of a file. -/
def readFile (name : FileName) : Program Found :=
  look (fun s => some (.read (name, s.disk.auth.lookup name)))
    fun s => .ok (name, s.disk.auth.lookup name)

/-- The end of the probes. -/
def finishProbes (summary : Summary) : Program Unit :=
  look (fun _ => some (.swept summary)) fun _ => .ok ()

/-- `probe_all` with its contexts. -/
def probeFiles : Program (Summary × List ProbeCandidate) := do
  let names ← listFiles opts
  let reads ← each readFile names
  let selected ← lift (contexts py reads)
  let (summary, candidates) ← lift (probeAll py opts.opener opts.clock opts.concurrency selected)
  finishProbes summary
  return (summary, candidates)

/-- The candidates of the probes whose file still has its digest. -/
def probeCandidates (records : List AuthRecord) (selected : List ProbeCandidate) :
    List ArchiveCandidate :=
  selected.filterMap fun candidate =>
    match records.find? fun r => r.path = candidate.path with
    | some record =>
      if record.digest = candidate.digest then
        some ⟨record, lit "probe-" ++ candidate.reason.text, none⟩
      else none
    | none => none

/-- The archiving of the candidates of the probes. -/
def archiveProbed (candidates : List ArchiveCandidate) : Program ℕ :=
  atomically (fun s s' => some (.archived (taken candidates s.disk.auth s'.disk.auth))) fun s =>
    let (result, disk) := archiveCandidates py opts.sameDevice opts.fails candidates opts.movedAt s.disk
    (result, { s with disk := disk })

/-- `probe_summary["gate"] in {"reachable", "no_accounts"}` -/
def mayConsume (gate : SweepGate) : Bool := gate = .transport .reachable || gate = .noAccounts

/-- Consumes the trigger if the gate allows it. -/
def consumeAllowed (gate : SweepGate) (trigger : Trigger) : Program Bool :=
  if mayConsume gate then consume py opts.consumeFails trigger else pure false

/-- What is applied after the probes: how many files were archived, and the status. -/
def applyProbed (candidates : List ArchiveCandidate) (summary : Summary) (trigger : Trigger)
    (status : TriggerStatus) : Program (ℕ × Outcome) :=
  if opts.apply then do
    let archived ← archiveProbed py opts candidates
    let consumed ← consumeAllowed py opts summary.gate trigger
    return (archived, if consumed then .consumed else .retained)
  else return (0, .loaded status)

/-- `refresh_document` -/
def refreshDocument : Program Document := do
  let direct ← onDisk (archiveDirect py opts)
  match ← load py opts.now with
  | (none, status) =>
    return ⟨opts.apply, direct.active, direct.candidates, direct.archived, direct.rejected,
      direct.stale, false, .loaded status, none⟩
  | (some trigger, status) => do
    let (summary, selected) ← probeFiles py opts
    let records ← onDisk (scanFiles py opts.rescanned opts.scanNow)
    let candidates := probeCandidates records selected
    let (archived, outcome) ← applyProbed py opts candidates summary trigger status
    return ⟨opts.apply, direct.active, direct.candidates + candidates.length,
      direct.archived + archived, direct.rejected, direct.stale, true, outcome, some summary⟩

end

/-! ### What the archiving takes away -/

variable {py : Py} {opts : RunOptions} {candidates : List ArchiveCandidate}

theorem mem_taken {before after : Dir FileName File} {name : FileName} {file : File}
    (h : (name, file) ∈ taken candidates before after) :
    before.lookup name = some file ∧ after.lookup name = none := by
  obtain ⟨c, -, hc⟩ := List.mem_filterMap.mp h
  split at hc
  · next f hf hnone =>
    cases hc
    exact ⟨hf, hnone⟩
  · cases hc

/-- What a transaction knows of a name: its file, and whether it was moved. -/
def known (name : FileName) (t : Txn) : Option File × Bool :=
  (t.world.auth.lookup name, name ∈ t.moved.map Prod.fst)

theorem frames_moveLoop {fails : ArchiveStep → Bool} {movedAt : Str} {name : FileName} :
    ∀ (selected : List (ArchiveCandidate × FileName)) (i : ℕ) (entries : List Json),
      name ∉ selected.map sourceOf → Act.Frames (known name) (moveLoop fails movedAt i selected entries)
  | [], _, _, _ => Act.frames_pure _
  | (c, target) :: rest, i, entries, h => by
    rw [List.map_cons, List.mem_cons, not_or] at h
    refine Act.frames_bind (Act.frames_step fun t => ?_) fun _ =>
      Act.frames_bind (Act.frames_step (Act.frames_pure _)) fun _ =>
      Act.frames_bind (Act.frames_modify fun t => ?_) fun _ => frames_moveLoop rest _ _ h.2
    · unfold known Txn.lift replaceIntoArchive
      rcases hf : t.world.auth.lookup c.record.path with _ | f
      · rw [transfer, hf]
        rfl
      · rw [transfer_of_lookup hf]
        dsimp only
        rw [Finmap.lookup_erase_ne h.1]
    · unfold known
      simp [show ¬ name = c.record.path from h.1]

theorem frames_atomicJson {fails : WriteStep → Bool} {name : FileName} (document : Dict) :
    Act.Frames (fun w : World => w.auth.lookup name) (atomicJson py fails document) := by
  unfold atomicJson
  refine Act.frames_bind (Act.frames_step (Act.frames_modify fun _ => rfl)) fun _ => ?_
  refine Act.frames_except ?_ fun e => ?_
  · exact Act.frames_bind (Act.frames_step (Act.frames_modify fun _ => rfl)) fun _ =>
      Act.frames_step (Act.frames_modify fun _ => rfl)
  · exact Act.frames_bind (Act.frames_modify fun _ => rfl) fun _ => Act.frames_raise _

theorem frames_archiveBody {fails : ArchiveStep → Bool} {movedAt : Str} {name : FileName}
    (document : Dict) {selected : List (ArchiveCandidate × FileName)}
    (h : name ∉ selected.map sourceOf) :
    Act.Frames (known name) (archiveBody py fails movedAt document selected) := by
  unfold archiveBody
  refine Act.frames_bind (frames_moveLoop selected _ _ h) fun entries => ?_
  refine Act.frames_bind (fun t => ?_) fun _ =>
    Act.frames_bind (Act.frames_step (Act.frames_pure _)) fun _ => Act.frames_step (Act.frames_pure _)
  have hjson := @frames_atomicJson py (fun s => fails (.write s)) name
    (Python.Value.set document (lit "entries") (.arr entries)) t.world
  exact congrArg (·, decide (name ∈ t.moved.map Prod.fst)) hjson

/-- **Only files with the digest of a candidate are archived.** -/
theorem archiveCandidates_auth {sameDevice : Bool} {fails : ArchiveStep → Bool} {movedAt : Str}
    {w : World} {name : FileName} (h : ∀ c ∈ candidates, c.record.path = name → ¬ Eligible py w.auth c) :
    (archiveCandidates py sameDevice fails candidates movedAt w).2.auth.lookup name =
      w.auth.lookup name := by
  by_cases hne : candidates = []
  · rw [archiveCandidates, if_pos hne]; rfl
  by_cases hprepare : fails .prepare = true
  · rw [archiveCandidates, if_neg hne, Act.bind_error (Act.step_fail hprepare _ _ _)]
  rw [archiveCandidates_run hne (by simpa using hprepare)]
  have hlocked : w.locked.auth = w.auth := locked_auth w
  unfold archiveLocked
  split_ifs
  · rw [hlocked]
  split
  · rw [hlocked]
  split
  · rw [hlocked]
  next document _ _ selected hselect =>
  have hsources : name ∉ selected.map sourceOf := by
    intro hmem
    obtain ⟨x, hx, hname⟩ := List.mem_map.mp hmem
    have heligible := select_eligible hselect hx
    rw [select_eq hselect] at hx
    obtain ⟨c, hc, rfl⟩ := List.mem_map.mp hx
    rw [hlocked] at heligible
    exact h c (List.mem_of_mem_filter hc) hname heligible
  have hbody := @frames_archiveBody py fails movedAt name document selected hsources ⟨w.locked, []⟩
  rcases hrun : archiveBody py fails movedAt document selected ⟨w.locked, []⟩ with ⟨e | _, t⟩
  · rw [hrun] at hbody
    obtain ⟨hauth, hmoved⟩ := Prod.mk.inj hbody
    have hnot : name ∉ t.moved.reverse.map Prod.fst := by
      rw [List.map_reverse, List.mem_reverse]
      simpa [known] using hmoved
    dsimp only
    rw [rollback_auth fails _ _ _ hnot]
    exact hauth.trans (by rw [hlocked])
  · rw [hrun] at hbody
    exact (Prod.mk.inj hbody).1.trans (by rw [hlocked])

/-! ### What a run does -/

/-- Every context of the files read has been probed, with a reachable transport, or there was none. -/
structure Complete (py : Py) (names : List FileName) (reads : List Found) (summary : Summary) :
    Prop where
  all : reads.map Prod.fst = names
  probed : ∃ selected, contexts py reads = .ok selected ∧
    ((summary.gate = .noAccounts ∧ selected = []) ∨
      (summary.gate = .transport .reachable ∧ ∃ (opener : Opener) (clock : Str → ℚ)
        (observations : List (Option Result)), transport opener = .reachable ∧
          List.Forall₂ (SharedResult (probeKey py)
              (fun key payload => probe py opener (clock key) payload)
              (selected.map ProbeContext.payload))
            (selected.map ProbeContext.payload) observations))

/-- The bytes of a file were read under its name, and every credential in them was probed and found
permanently dead: `found` are the contexts of the bytes, among those of all files read. -/
def Condemned (py : Py) (reads : List Found) (name : FileName) (file : File) : Prop :=
  ∃ (read : File) (found selected : List ProbeContext) (opener : Opener) (clock : Str → ℚ)
    (observations : List (Option Result)), (name, some read) ∈ reads ∧ read.bytes = file.bytes ∧
      fileContexts py name read = .ok found ∧ found ≠ [] ∧
      contexts py reads = .ok selected ∧ (∀ x ∈ found, x ∈ selected) ∧
      probePayloads py opener clock (selected.map ProbeContext.payload) = .ok observations ∧
      ∀ (i : ℕ) x, selected[i]? = some x → x ∈ found →
        ∃ result, observations[i]? = some (some result) ∧ ProbedDead py opener clock x result

/-- The rule of the local runs. -/
abbrev LocalRule (py : Py) : Rule (Site World) (Event FileName Found Summary) :=
  TriggerRule (Complete py) fun reads _ files => ∀ x ∈ files, Condemned py reads x.1 x.2

variable {past : List (Event FileName Found Summary)} {reads : List Found} {names : List FileName}
  {summary : Summary} {selected : List ProbeCandidate}

/-- A sweep that may consume the trigger is complete. -/
theorem probeAll_complete {opener : Opener} {clock : Str → ℚ} {concurrency : ℤ}
    {found : List ProbeContext} (hall : reads.map Prod.fst = names)
    (hfound : contexts py reads = .ok found)
    (h : probeAll py opener clock concurrency found = .ok (summary, selected))
    (hgate : mayConsume summary.gate = true) : Complete py names reads summary := by
  refine ⟨hall, found, hfound, ?_⟩
  unfold probeAll at h
  split_ifs at h with hempty
  · cases h
    exact .inl ⟨rfl, hempty⟩
  split at h
  · next htransport =>
    obtain ⟨observations, hobservations, h⟩ := except_bind_ok h
    cases h
    exact .inr ⟨rfl, opener, clock, observations, htransport, forall_shared hobservations⟩
  · next hother =>
    cases h
    have hreachable : transport opener = .reachable := by
      have hgate' : SweepGate.transport (transport opener) = .transport .reachable ∨
          SweepGate.transport (transport opener) = .noAccounts := by
        simpa [mayConsume] using hgate
      rcases hgate' with hsame | hnone
      · exact SweepGate.transport.inj hsame
      · cases hnone
    exact absurd hreachable hother

/-- What a sweep knows of its candidates: all contexts of the path come from a file with the digest. -/
def Selects (py : Py) (reads : List Found) (selected : List ProbeCandidate) : Prop :=
  ∀ c ∈ selected, ∃ (read : File) (found all : List ProbeContext) (opener : Opener) (clock : Str → ℚ)
    (observations : List (Option Result)), (c.path, some read) ∈ reads ∧
      py.sha256 read.bytes = c.digest ∧ fileContexts py c.path read = .ok found ∧ found ≠ [] ∧
      contexts py reads = .ok all ∧ (∀ x ∈ found, x ∈ all) ∧
      probePayloads py opener clock (all.map ProbeContext.payload) = .ok observations ∧
      ∀ (i : ℕ) x, all[i]? = some x → x ∈ found →
        ∃ result, observations[i]? = some (some result) ∧ ProbedDead py opener clock x result

theorem probeAll_selects {opener : Opener} {clock : Str → ℚ} {concurrency : ℤ}
    {all : List ProbeContext} (hall : contexts py reads = .ok all)
    (h : probeAll py opener clock concurrency all = .ok (summary, selected)) :
    Selects py reads selected := by
  intro c hc
  obtain ⟨observations, hobservations, hcandidate⟩ := probeAll_ok h hc
  obtain ⟨⟨x, hx, hpath⟩, hdead⟩ := candidate_dead hobservations hcandidate
  obtain ⟨read, found, hread, hfound, hxfound⟩ := mem_contextsFrom hall hx
  rw [hpath] at hread hfound
  obtain ⟨found', hfound', hsub⟩ := contextsFrom_mem hall hread
  cases hfound.symm.trans hfound'
  obtain ⟨i, hi, rfl⟩ := List.getElem_of_mem hx
  have hdigest := (hdead i _ (List.getElem?_eq_getElem hi) hpath).1
  refine ⟨read, found, all, opener, clock, observations, hread, ?_, hfound,
    List.ne_nil_of_mem hxfound, hall, hsub, hobservations, fun j y hy hyfound => ?_⟩
  · rw [← hdigest, (mem_fileContexts hfound hxfound).2]
  · exact (hdead j y hy (mem_fileContexts hfound hyfound).1).2

/-- **The probes** list and read the files, and then report the sweep. -/
theorem meets_probeFiles : Meets (LocalRule py) (fun past' r => match r with
      | .ok (summary, selected) => ∃ names reads,
          past' = past ++ (.listed names :: reads.map .read ++ [.swept summary]) ∧
            (mayConsume summary.gate = true → Complete py names reads summary) ∧
            Selects py reads selected
      | .error _ => True) past (probeFiles py opts) := by
  unfold probeFiles
  refine Meets.bind (meets_look (fun s => by simp) fun s => ?_)
  have hreads := @meets_each _ _ _ _ _ (LocalRule py)
    (fun past' reads => past' = past ++ (.listed (opts.listed s.disk) :: reads.map .read))
    (fun name (found : Found) => found.1 = name) (fun _ _ => True) readFile ?_ (opts.listed s.disk)
    (past ++ [.listed (opts.listed s.disk)]) [] rfl
  · refine Meets.bind (hreads.mono fun past' r hr => ?_)
    rcases r with e | reads
    · trivial
    obtain ⟨rfl, hnames⟩ := hr
    refine Meets.bind (meets_lift ?_)
    rcases hcontexts : contexts py reads with e | all
    · trivial
    refine Meets.bind (meets_lift ?_)
    rcases hprobe : probeAll py opts.opener opts.clock opts.concurrency all with
      e | ⟨summary, selected⟩
    · trivial
    refine Meets.bind (meets_look (fun s => by simp) fun s' => ?_)
    refine ⟨opts.listed s.disk, reads, by simp, fun hgate => ?_, probeAll_selects hcontexts hprobe⟩
    refine probeAll_complete ?_ hcontexts hprobe hgate
    rw [← List.forall₂_eq_eq_eq, List.forall₂_map_left_iff]
    exact hnames.flip.imp fun _ _ h => h
  · intro name past' reads hI
    refine meets_look (fun s => by simp) fun s => ?_
    subst hI
    exact ⟨by simp, rfl⟩

/-- A candidate of the probes has the name and the digest of one that they selected. -/
theorem mem_probeCandidates {records : List AuthRecord} {c : ArchiveCandidate}
    (h : c ∈ probeCandidates records selected) :
    ∃ x ∈ selected, c.record.path = x.path ∧ c.record.digest = x.digest := by
  obtain ⟨x, hx, hc⟩ := List.mem_filterMap.mp h
  split at hc
  · next record hfind =>
    have hpath : record.path = x.path := by simpa using List.find?_some hfind
    split_ifs at hc with hdigest
    cases hc
    exact ⟨x, hx, hpath, hdigest⟩
  · cases hc

/-- **The archiving** takes only files whose bytes were condemned. -/
theorem meets_archiveProbed (hinj : Function.Injective py.sha256) {raw : Bytes}
    {records : List AuthRecord} (hselects : Selects py reads selected) :
    Meets (LocalRule py) (fun past' _ => ∃ post, past' = sweptPast raw names reads summary ++ post)
      (sweptPast raw names reads summary) (archiveProbed py opts (probeCandidates records selected)) := by
  refine meets_atomically fun s => ⟨⟨rfl, raw, names, reads, summary, rfl, ?_⟩, _, rfl⟩
  rintro ⟨name, file⟩ hmem
  obtain ⟨hfile, hnone⟩ := mem_taken hmem
  have heligible : ∃ c ∈ probeCandidates records selected, c.record.path = name ∧
      Eligible py s.disk.auth c := by
    by_contra hno
    have hsame := @archiveCandidates_auth py (probeCandidates records selected) opts.sameDevice
      opts.fails opts.movedAt s.disk name fun c hc hname he => hno ⟨c, hc, hname, he⟩
    have hgone : none = s.disk.auth.lookup name := hnone.symm.trans hsame
    rw [hfile] at hgone
    cases hgone
  obtain ⟨c, hc, rfl, f, hf, hdigest⟩ := heligible
  obtain ⟨x, hx, hpath, hsame⟩ := mem_probeCandidates hc
  cases (Option.mem_def.mp hf).symm.trans hfile
  obtain ⟨read, found, all, opener, clock, observations, hread, hsha, hrest⟩ := hselects x hx
  rw [hpath]
  refine ⟨read, found, all, opener, clock, observations, hread, hinj ?_, hrest⟩
  rw [hsha, hdigest, hsame]

/-- **A run follows the rule.** -/
theorem meets_refreshDocument (hinj : Function.Injective py.sha256) :
    Meets (LocalRule py) (fun _ _ => True) [] (refreshDocument py opts) := by
  unfold refreshDocument
  refine Meets.bind ((meets_onDisk (archiveDirect py opts)).mono fun past' r hr => ?_)
  subst hr
  rcases r with e | direct
  · trivial
  refine Meets.bind ((meets_load opts.now).mono fun past' r hr => ?_)
  rcases r with e | ⟨_ | trigger, status⟩
  · trivial
  · trivial
  obtain ⟨raw, rfl, hdigest⟩ := hr
  refine Meets.bind (meets_probeFiles.mono fun past' r hr => ?_)
  rcases r with e | ⟨summary, selected⟩
  · trivial
  obtain ⟨names, reads, rfl, hcomplete, hselects⟩ := hr
  refine Meets.bind ((meets_onDisk (scanFiles py opts.rescanned opts.scanNow)).mono
    fun past' r hr => ?_)
  subst hr
  rcases r with e | records
  · trivial
  refine Meets.bind ?_
  unfold applyProbed
  split_ifs
  · refine Meets.bind ((meets_archiveProbed hinj hselects).mono fun past' r hr => ?_)
    obtain ⟨post, rfl⟩ := hr
    rcases r with e | archived
    · trivial
    refine Meets.bind ?_
    unfold consumeAllowed
    split_ifs with hgate
    · refine (meets_consume hinj hdigest (hcomplete hgate)).mono fun past' r _ => ?_
      rcases r with e | consumed
      · trivial
      · trivial
    · trivial
  · trivial

/-! ### Runs side by side -/

/-- The states of a local machine: writers, and runs of `refresh_document`. -/
def Reaches (py : Py) (first : Site World) :
    System (Site World) (Event FileName Found Summary) PyError Document → Prop :=
  Reachable Outside (fun x => ∃ opts, x = refreshDocument py opts) first

theorem Reaches.trace (hinj : Function.Injective py.sha256) {first : Site World}
    {c : System (Site World) (Event FileName Found Summary) PyError Document} (h : Reaches py first c) :
    Trace Outside (LocalRule py) first c.history c.shared := by
  have hstarts : ∀ x, (∃ opts, x = refreshDocument py opts) →
      Meets (LocalRule py) (fun _ _ => True) [] x := by
    rintro _ ⟨opts, rfl⟩
    exact meets_refreshDocument hinj
  exact (Reachable.trace hstarts h).2

/-- The bytes of a trigger. -/
def sampleRaw : Bytes := utf8 (lit "trigger")

/-- A trigger observed at the epoch. -/
def sampleTrigger : File := ⟨sampleRaw, .value (.obj [(lit "schema", .str triggerSchema),
  (lit "reason", .str (lit "auth_unavailable")), (lit "observedAt", .str epochText)])⟩

/-- A file with an access token. -/
def sampleFile : File := ⟨utf8 (lit "token"), .value (.obj [(lit "access_token", .str (lit "a.b.c"))])⟩

/-- A local machine with one file. -/
def sampleSite : Site World := ⟨⟨Finmap.singleton aJson sampleFile, ∅, none, ∅⟩, .absent, false⟩

/-- A run at the epoch, in which every request is refused. -/
def sampleOptions : RunOptions where
  apply := true
  now := 0
  scanNow := 0
  nowText := epochText
  movedAt := epochText
  opener := fun _ => .httpError 403 (some (utf8 (lit "account_deactivated")))
  clock := fun _ => 0
  concurrency := 1
  scanned := fun _ => [aJson]
  listed := fun _ => [aJson]
  rescanned := fun _ => [aJson]
  receipts := fun _ => []
  sameDevice := true
  directFails := fun _ => false
  fails := fun _ => false
  consumeFails := fun _ => false

/-- The run after a trigger was written. -/
def sampleStart : System (Site World) (Event FileName Found Summary) PyError Document :=
  ⟨{ sampleSite with trigger := .file sampleTrigger },
    [refreshDocument (epochPy []) sampleOptions], [(none, .wrote sampleRaw)]⟩

theorem injective_epochPy : Function.Injective (epochPy []).sha256 := by
  intro a b h
  have hbytes : a.map UInt8.toNat = b.map UInt8.toNat := (List.cons.inj h).2
  exact List.map_injective_iff.mpr (fun _ _ => UInt8.toNat_inj.mp) hbytes

theorem sample_reaches (k : ℕ) : Reaches (epochPy []) sampleSite ((advance 0)^[k] sampleStart) := by
  have hstart : Reaches (epochPy []) sampleSite sampleStart := by
    refine (Relation.ReflTransGen.single (.outside (Outside.write _ sampleTrigger))).tail ?_
    exact .start ⟨sampleOptions, rfl⟩
  exact hstart.advance 0 k

end Cloudx.Local.RefreshDocument
