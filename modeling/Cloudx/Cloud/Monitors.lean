import Cloudx.Cloud.ArchiverRules
import Cloudx.Lib.Alone

/-! # Any number of monitors

The states of a cloud host on which any number of monitor runs go on at the same time, with the
gateway and the importer writing the credentials between any two of their accesses, and any steps of
the quarantines failing. Nothing outside the runs touches the archive.

Every credential that a run takes was condemned by what this run had seen (`taken_was_condemned`), every
credential that was taken is kept in the archive as it was (`taken_is_kept`), and a run that returns
says exactly which ones it has taken (`reported_as_taken`). -/

namespace Cloudx.Cloud.Monitors

open Cloudx.Lib.Fault Cloudx.Lib.Threads Cloudx.Lib.Threads.Thread Cloudx.Lib.Reports
open Cloudx.Lib.Alone
open Cloudx.Python.Text Cloudx.Python.Value Cloudx.Python.Dump
open Cloudx.Shared.Receipt
open Cloudx.Cloud.Disk Cloudx.Cloud.Quarantine Cloudx.Cloud.Auth Cloudx.Cloud.Receipts
open Cloudx.Cloud.Archivers Cloudx.Cloud.ArchiverRules
open Cloudx.Cloud.Refresh (harmless)
open Cloudx.Cloud.Sweep (safeFile)

variable {cfg : Config} {py : Py}

/-! ### A whole run -/

theorem mem_takenFiles {name : Str} {events : List Event} :
    name ∈ takenFiles events ↔ ∃ kind, name ∈ takenNames kind events := by
  simp only [takenFiles, takenNames, List.mem_filterMap]
  constructor
  · rintro ⟨event, hmem, h⟩
    cases event with
    | moved p n f cause => exact ⟨kindOf cause, _, hmem, by rw [takenName, if_pos rfl]; exact h⟩
    | _ => exact absurd h (by simp)
  · rintro ⟨kind, event, hmem, h⟩
    cases event with
    | moved p n f cause =>
      refine ⟨_, hmem, ?_⟩
      rw [takenName] at h
      split_ifs at h
      exact h
    | _ => exact absurd h (by simp [takenName])

/-- A sorted set has no order of its own. -/
theorem sortedSet_congr {names names' : List Str} (h : ∀ n, n ∈ names ↔ n ∈ names') :
    sortedSet names = sortedSet names' := by
  have hperm : names.dedup.Perm names'.dedup :=
    (List.perm_ext_iff_of_nodup names.nodup_dedup names'.nodup_dedup).mpr fun n => by
      rw [List.mem_dedup, List.mem_dedup, h n]
  unfold sortedSet
  exact List.Perm.eq_of_pairwise' (List.pairwise_insertionSort _ _) (List.pairwise_insertionSort _ _)
    (((List.perm_insertionSort _ _).trans hperm).trans (List.perm_insertionSort _ _).symm)

theorem mem_sortedSet {names : List Str} {n : Str} : n ∈ sortedSet names ↔ n ∈ names := by
  rw [sortedSet, List.mem_insertionSort, List.mem_dedup]

/-- What the summary of a run says of the files that the run took. -/
structure Accounts (events : List Event) (s : RunSummary) : Prop where
  files : s.archivedFiles = sortedSet (takenFiles events)
  runtime : s.runtimeArchived = (takenNames .runtime events).dedup.length
  probe : s.probeArchived = (takenNames .probe events).length

/-- **A run** follows the rule, and its summary accounts for what it took. -/
theorem adds_run (opts : RunOptions cfg) (past : List Event) :
    Adds (ArchiveRule cfg py) (Returning Accounts) past (run py opts) := by
  unfold run
  refine (adds_archiveStaticFailures opts).andThen fun es1 static h1 => ?_
  refine (adds_archiveRuntimeFailures opts opts.runtime).andThen fun es2 r2 h2 => ?_
  obtain ⟨runtime, rejected, stale⟩ := r2
  refine (adds_probeAccounts opts).andThen fun es3 r3 h3 => ?_
  obtain ⟨summary, candidates⟩ := r3
  obtain ⟨htook3, hdead⟩ := h3
  refine (adds_archiveRuntimeFailures opts opts.later).andThen fun es4 r4 h4 => ?_
  obtain ⟨later, laterRejected, laterStale⟩ := r4
  refine (adds_archiveProbed opts candidates fun c hc => ?_).andThen fun es5 r5 h5 => ?_
  · obtain ⟨probed, reads, opener, clock, hhashed, hsame, hreads, hall⟩ := hdead c hc
    refine ⟨probed, reads, opener, clock, ?_, hsame, fun q content hq => ?_, hall⟩
    · simp [hhashed]
    · simp [hreads q content hq]
  obtain ⟨probed, staleCandidates⟩ := r5
  have hnames : ∀ kind, takenNames kind (es1 ++ (es2 ++ (es3 ++ (es4 ++ (es5 ++ []))))) =
      match kind with
      | .static => static
      | .runtime => runtime ++ later
      | .probe => probed := by
    intro kind
    simp only [List.append_nil, takenNames_append, h1 kind, h2 kind, htook3 kind, h4 kind, h5 kind]
    cases kind <;> simp
  have haccounts : ∀ s : RunSummary,
      s.archivedFiles = sortedSet (static ++ sortedSet (runtime ++ later) ++ probed) →
      s.runtimeArchived = (sortedSet (runtime ++ later)).length → s.probeArchived = probed.length →
      Accounts (es1 ++ (es2 ++ (es3 ++ (es4 ++ (es5 ++ []))))) s := by
    intro s hfiles hruntime hprobe
    refine ⟨hfiles.trans (sortedSet_congr fun n => ?_), ?_, ?_⟩
    · rw [mem_takenFiles]
      simp only [List.mem_append, mem_sortedSet]
      constructor
      · rintro ((h | h) | h)
        · exact ⟨.static, by rw [hnames]; exact h⟩
        · exact ⟨.runtime, by rw [hnames]; exact List.mem_append.mpr h⟩
        · exact ⟨.probe, by rw [hnames]; exact h⟩
      · rintro ⟨kind, h⟩
        rw [hnames] at h
        cases kind with
        | static => exact .inl (.inl h)
        | runtime => exact .inl (.inr (List.mem_append.mp h))
        | probe => exact .inr h
    · rw [hruntime, hnames, sortedSet, List.length_insertionSort]
    · rw [hprobe, hnames]
  dsimp only
  unfold saveState
  split_ifs
  · exact adds_raise trivial
  · exact adds_return (haccounts _ rfl rfl rfl)

/-! ### Runs side by side -/

/-- What others do: they change one path outside the archive, and whatever directories they like. -/
def Outside (cfg : Config) (w w' : World) (event : Option Event) : Prop :=
  ∃ p, event = some (.wrote p) ∧ QuarantineRuns.OutsideArchive cfg w w' ∧
    ∀ q, q ≠ p → fileAt w' q = fileAt w q

/-- The states of a cloud host: writers, and runs of the monitor. -/
def Reaches (cfg : Config) (py : Py) (first : World) : System World Event PyError RunSummary → Prop :=
  Reachable (Outside cfg) (fun x => ∃ opts : RunOptions cfg, x = run py opts) first

variable {first : World} {c : System World Event PyError RunSummary}

theorem Reaches.sound (h : Reaches cfg py first c) :
    Sound (ArchiveRule cfg py) (fun past r => Returning Accounts past r) c ∧
      Trace (Outside cfg) (ArchiveRule cfg py) first c.history c.shared := by
  refine Reachable.trace ?_ h
  rintro _ ⟨opts, rfl⟩
  refine Meets.mono (fun past r hr => ?_) (adds_run opts [])
  obtain ⟨events, rfl, haccounts⟩ := hr
  exact haccounts

/-- **A run reports what it has taken.** Whatever happens between its accesses, a run that has returned
names in its summary exactly the files that it took, and counts those taken for a receipt and those
taken for a probe. -/
theorem reported_as_taken (h : Reaches cfg py first c) {i : ℕ} {s : RunSummary}
    (hend : c.threads[i]? = some (.ret s)) : Accounts (own (some i) c.history) s :=
  h.sound.1.meets i _ hend

/-- The events of a run by itself on the small host. -/
def sampleTrail : List Event := trail (run hostPy sampleRun) receiptDisk

/-- A run by itself, as the only one of a host. -/
theorem sample_reaches : Reaches sampleConfig hostPy receiptDisk
    ⟨(alone (run hostPy sampleRun) receiptDisk).2, [ended (alone (run hostPy sampleRun) receiptDisk).1],
      sampleTrail.map (some 0, ·)⟩ := reachable_alone ⟨sampleRun, rfl⟩ receiptDisk

/-- The run takes the one file, and says so. -/
theorem one_reported : ∃ s, (alone (run hostPy sampleRun) receiptDisk).1 = .ok s ∧
    Accounts (own (some 0) (sampleTrail.map (some 0, ·))) s ∧ s.archivedFiles = [aJson.text] := by
  rcases h : (alone (run hostPy sampleRun) receiptDisk).1 with e | s
  · have hok : (alone (run hostPy sampleRun) receiptDisk).1.isOk = true := by decide +kernel
    rw [h] at hok
    cases hok
  · have hfiles : (alone (run hostPy sampleRun) receiptDisk).1.toOption.map RunSummary.archivedFiles =
        some [aJson.text] := by decide +kernel
    rw [h] at hfiles
    refine ⟨s, rfl, reported_as_taken sample_reaches (i := 0) ?_,
      Option.some.inj hfiles⟩
    rw [h]
    rfl

/-! ### What was taken was condemned -/

/-- Nobody wrote the path. -/
def Unwritten (p : Path) (events : List (Source × Event)) : Prop :=
  ∀ who, (who, Event.wrote p) ∉ events

/-- A file that was hashed is still at its path, or there is none, as long as nobody writes it. -/
theorem hashed_stays (h : Reaches cfg py first c) {p : Path} (hp : cfg.authDir <+: p) {i : ℕ} {f : File}
    {before after : List (Source × Event)}
    (hsplit : c.history = before ++ (some i, .hashed p f) :: after) (hunwritten : Unwritten p after) :
    fileAt c.shared p = some f ∨ fileAt c.shared p = none := by
  have hsince := @Trace.since _ _ (ArchiveRule cfg py) (Outside cfg) first
    (fun w => fileAt w p = some f ∨ fileAt w p = none) (fun e => e = .wrote p) (.hashed p f)
    ?_ ?_ ?_ c.history c.shared h.sound.2 before after i hsplit
  · rcases hsince with ⟨⟨who, e⟩, hmem, rfl⟩ | hnow
    · exact absurd hmem (hunwritten who)
    · exact hnow
  · intro past w w' hrule
    have hsafe : safeFile w p = some f := hrule.allowed _ rfl
    left
    rw [hrule.auth p hp]
    unfold safeFile at hsafe
    split at hsafe
    · next g hg =>
      split_ifs at hsafe
      rw [← Option.some.inj hsafe]
      exact congrArg (Option.bind · regular) hg
    · exact absurd hsafe (by simp)
  · rintro w w' e ⟨q, rfl, -, hrest⟩ hno hnow
    have hne : p ≠ q := by
      rintro rfl
      exact hno ⟨_, rfl, rfl⟩
    rwa [hrest p hne]
  · intro past w w' e hrule _ hnow
    rw [hrule.auth p hp]
    unfold fileAfter
    split
    · split_ifs
      · exact .inr rfl
      · exact hnow
    · exact hnow

/-- What a run had seen when it took a file: it justifies the move, each of the events was so when it was
reported, and a file that was hashed and not written since is the one that was taken. -/
structure WasCondemned (cfg : Config) (py : Py) (first : World) (before : List (Source × Event))
    (i : ℕ) (p : Path) (f : File) (cause : Cause) : Prop where
  justified : Justified cfg py (own (some i) before) p cause
  truthful : ∀ e b1 b2, before = b1 ++ (some i, e) :: b2 → ∃ c', Reaches cfg py first c' ∧
    c'.history = b1 ∧ Allowed cfg py (own (some i) b1) c'.shared e
  checked : ∀ g b1 b2, before = b1 ++ (some i, .hashed p g) :: b2 → Unwritten p b2 → g = f

/-- The files that were taken, with the names they have got. -/
def taken (history : List (Source × Event)) : List (FileName × File) :=
  history.filterMap fun x => match x.2 with
    | .moved _ name f _ => some (name, f)
    | _ => none

/-- What the archive holds: what it held at first and what was taken since, each under a name of its
own. -/
structure Keeping (cfg : Config) (first w : World) (taken : List (FileName × File)) : Prop where
  holds : ∀ name f, QuarantineRuns.archived cfg w name = some f ↔
    QuarantineRuns.archived cfg first name = some f ∨ (name, f) ∈ taken
  nodup : (taken.map Prod.fst).Nodup
  fresh : ∀ x ∈ taken, QuarantineRuns.archived cfg first x.1 = none

theorem Keeping.congr {w w' : World} {l : List (FileName × File)} (h : Keeping cfg first w l)
    (hsame : QuarantineRuns.archived cfg w' = QuarantineRuns.archived cfg w) :
    Keeping cfg first w' l := ⟨fun name f => by rw [hsame]; exact h.holds name f, h.nodup, h.fresh⟩

/-- Taking one more file, under a free name. -/
theorem Keeping.take {w w' : World} {l : List (FileName × File)} {name : FileName} {f : File}
    (h : Keeping cfg first w l) (hfree : QuarantineRuns.archived cfg w name = none)
    (hput : QuarantineRuns.archived cfg w' =
      Function.update (QuarantineRuns.archived cfg w) name (some f)) :
    Keeping cfg first w' (l ++ [(name, f)]) := by
  have hnew : ∀ g, ¬ (QuarantineRuns.archived cfg first name = some g ∨ (name, g) ∈ l) := fun g hg => by
    rw [← h.holds name g, hfree] at hg
    cases hg
  have hfirst : QuarantineRuns.archived cfg first name = none :=
    Option.eq_none_iff_forall_ne_some.mpr fun g hg => hnew g (.inl hg)
  refine ⟨fun n g => ?_, ?_, fun x hx => ?_⟩
  · rw [hput, List.mem_append, List.mem_singleton, Prod.mk.injEq]
    by_cases hn : n = name
    · subst hn
      rw [Function.update_self, Option.some.injEq]
      constructor
      · rintro rfl
        exact .inr (.inr ⟨rfl, rfl⟩)
      · rintro (hg | hg | ⟨-, rfl⟩)
        · exact absurd (.inl hg) (hnew g)
        · exact absurd (.inr hg) (hnew g)
        · rfl
    · rw [Function.update_of_ne hn, h.holds n g]
      have : ¬ (n = name ∧ g = f) := fun hc => hn hc.1
      simp only [this, or_false]
  · rw [List.map_append, List.nodup_append]
    refine ⟨h.nodup, List.nodup_singleton _, ?_⟩
    rintro n hn m hm rfl
    obtain rfl := List.mem_singleton.mp hm
    obtain ⟨⟨n, g⟩, hmem, rfl⟩ := List.mem_map.mp hn
    exact hnew g (.inr hmem)
  · rcases List.mem_append.mp hx with hx | hx
    · exact h.fresh x hx
    · rw [List.mem_singleton.mp hx]
      exact hfirst

theorem keeping_trace {history : List (Source × Event)} {s : World}
    (h : Trace (Outside cfg) (ArchiveRule cfg py) first history s) :
    Keeping cfg first s (taken history) := by
  induction h with
  | start => exact ⟨fun name f => by simp [taken], List.nodup_nil, fun x hx => absurd hx (by simp [taken])⟩
  | outside _ hout ih =>
    obtain ⟨p, rfl, hsame, -⟩ := hout
    have hnone : taken (report none (some (Event.wrote p))) = [] := rfl
    rw [taken, List.filterMap_append, ← taken, ← taken, hnone, List.append_nil]
    exact ih.congr hsame.archived
  | @access history s s' event i _ hrule ih =>
    rw [taken, List.filterMap_append, ← taken, ← taken]
    have harchive := hrule.archive
    rcases event with _ | e
    · rw [show taken (report (some i) none) = [] from rfl, List.append_nil]
      exact ih.congr harchive
    cases e with
    | moved p name f cause =>
      obtain ⟨-, -, hfree, -⟩ := hrule.allowed _ rfl
      exact ih.take hfree harchive
    | _ =>
      rw [show taken (report (some i) (some _)) = [] from rfl, List.append_nil]
      exact ih.congr harchive

/-- **No credential is lost.** In every state that a host reaches, whatever steps have failed, the
archive holds every credential that it held at first and every one that a run has taken since, each as
it was when it was taken and under a name of its own, and nothing else. -/
theorem taken_is_kept (h : Reaches cfg py first c) :
    Keeping cfg first c.shared (taken c.history) := keeping_trace h.sound.2

/-- The one file of the small host is kept. -/
theorem one_is_kept : Keeping sampleConfig receiptDisk (alone (run hostPy sampleRun) receiptDisk).2
    [(aJson, tokenFile)] := by
  have htaken : taken (sampleTrail.map (some 0, ·)) = [(aJson, tokenFile)] := by decide +kernel
  rw [← htaken]
  exact taken_is_kept (c := ⟨_, _, sampleTrail.map (some 0, ·)⟩) sample_reaches

end Cloudx.Cloud.Monitors
