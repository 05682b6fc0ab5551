import Cloudx.Lib.Threads
import Cloudx.Lib.Memo
import Cloudx.Shared.Receipt

/-! # The trigger of a sweep

Writers put a trigger into `trigger.json`, each by replacing the file. A run of the maintenance loads
it, reads the contexts of the credentials, probes them, and removes the file if its bytes are still
those it has loaded; comparing and removing is one step. The cloud and the local package have near-copies
of the two functions, which are stated here once.

Any number of runs share the file. `TriggerRule` is what each of them does to it, and what follows for a
run of them all is that no trigger is lost. -/

namespace Cloudx.Shared.Trigger

open Cloudx.Lib.Fault Cloudx.Lib.Memo Cloudx.Lib.Threads Cloudx.Lib.Threads.Thread
open Cloudx.Python.Text Cloudx.Python.Value Cloudx.Python.Dump
open Cloudx.Shared.Receipt

/-! ### The runs and what they share -/

/-- What the runs share: the disk with the credentials, the trigger file and the lock of a sweep. -/
structure Site (δ : Type) where
  disk : δ
  trigger : Entry
  sweeping : Bool

/-- What is reported: a trigger was written or loaded, the files were listed, one was read, the probes are
done, files were archived because of them, or the trigger was removed. -/
inductive Event (π ρ κ : Type) where
  | wrote (raw : Bytes)
  | loaded (raw : Bytes)
  | listed (paths : List π)
  | read (found : ρ)
  | swept (result : κ)
  | archived (files : List (π × File))
  | removed (raw : Bytes)
deriving DecidableEq

variable {δ π ρ κ : Type}

/-- The bytes of a regular file. -/
def bytesOf : Entry → Option Bytes
  | .file f => some f.bytes
  | _ => none

/-- `_safe_bytes`, `_bytes` -/
def safeBytes (entry : Entry) : Option Bytes :=
  (bytesOf entry).filter fun raw => raw.length ≤ maxDocumentBytes

/-- What happens outside the runs: a writer replaces the trigger, or the credentials change. -/
inductive Outside : Site δ → Site δ → Option (Event π ρ κ) → Prop
  | write (s : Site δ) (f : File) : Outside s { s with trigger := .file f } (some (.wrote f.bytes))
  | disk (s : Site δ) (disk : δ) : Outside s { s with disk := disk } none

/-! ### Loading and consuming -/

section

variable (py : Py)

/-- Reports an accepted trigger. -/
def noteLoaded (now : ℚ) (s : Site δ) : Option (Event π ρ κ) :=
  match loadTrigger py now s.trigger with
  | .ok (some _, _) => (bytesOf s.trigger).map .loaded
  | _ => none

/-- `load_trigger`, `load` -/
def load (now : ℚ) :
    Thread (Site δ) (Event π ρ κ) PyError (Option Receipt.Trigger × TriggerStatus) :=
  look (noteLoaded py now) fun s => loadTrigger py now s.trigger

/-- The accesses of `consume` after the comparison. -/
inductive ConsumeStep where
  | unlink
  | fsync
deriving DecidableEq

/-- `consume_trigger`, `consume` -/
def consumeTrigger (fails : ConsumeStep → Bool) (trigger : Receipt.Trigger) :
    Act (Site δ) PyError Bool := fun s =>
  match safeBytes s.trigger with
  | none => (.ok false, s)
  | some raw =>
    if py.sha256 raw ≠ trigger.digest then (.ok false, s)
    else if fails .unlink then (.ok false, s)
    else (.ok !fails .fsync, { s with trigger := .absent })

/-- Reports the removal of the trigger. -/
def noteRemoved (s s' : Site δ) : Option (Event π ρ κ) :=
  if s'.trigger = .absent then (bytesOf s.trigger).map .removed else none

/-- `consume_trigger` as an access. -/
def consume (fails : ConsumeStep → Bool) (trigger : Receipt.Trigger) :
    Thread (Site δ) (Event π ρ κ) PyError Bool :=
  atomically noteRemoved (consumeTrigger py fails trigger)

end

/-- `sweep_lock`, which does not wait. -/
def trySweepLock : Thread (Site δ) (Event π ρ κ) PyError Bool :=
  atomically silent fun s =>
    if s.sweeping then (.ok false, s) else (.ok true, { s with sweeping := true })

/-- The end of `sweep_lock`. -/
def releaseSweepLock (s : Site δ) : Site δ := { s with sweeping := false }

/-- A program over the disk of the credentials alone. -/
abbrev DiskProgram (δ α : Type) := Thread δ Empty PyError α

/-- Such a program in a run. -/
def onDisk {α : Type} (x : DiskProgram δ α) : Thread (Site δ) (Event π ρ κ) PyError α :=
  zoom Site.disk (fun disk s => { s with disk := disk }) x

/-! ### What a run does to the trigger -/

/-- The events of a run that has loaded `raw`, listed and read the files after that, and then swept with a
result. -/
def sweptPast (raw : Bytes) (paths : List π) (reads : List ρ) (result : κ) : List (Event π ρ κ) :=
  .loaded raw :: .listed paths :: reads.map .read ++ [.swept result]

/-- What a run does: it changes the trigger only by removing it, after a sweep that is complete, with the
bytes that it had loaded before; and it archives, if at all, after a sweep. -/
def TriggerRule (complete : List π → List ρ → κ → Prop)
    (archives : List ρ → κ → List (π × File) → Prop) : Rule (Site δ) (Event π ρ κ) :=
  fun past s s' event => match event with
    | some (.wrote _) => False
    | some (.loaded raw) => bytesOf s.trigger = some raw ∧ s'.trigger = s.trigger
    | some (.archived files) => s'.trigger = s.trigger ∧ ∃ raw paths reads result,
        past = sweptPast raw paths reads result ∧ archives reads result files
    | some (.removed raw) => bytesOf s.trigger = some raw ∧ s'.trigger = .absent ∧
        ∃ paths reads result post, past = sweptPast raw paths reads result ++ post ∧
          complete paths reads result
    | _ => s'.trigger = s.trigger

variable {complete : List π → List ρ → κ → Prop} {archives : List ρ → κ → List (π × File) → Prop}
  {α : Type} {py : Py} {past : List (Event π ρ κ)}

/-- A trigger is loaded from a file, whose digest it carries. -/
theorem loadTrigger_some {now : ℚ} {entry : Entry} {trigger : Receipt.Trigger} {status : TriggerStatus}
    (h : loadTrigger py now entry = .ok (some trigger, status)) :
    ∃ raw, bytesOf entry = some raw ∧ trigger.digest = py.sha256 raw := by
  unfold loadTrigger at h
  split_ifs at h
  · cases h
  obtain ⟨found, hfound, h⟩ := except_bind_ok h
  rcases found with _ | ⟨raw, d⟩
  · cases h
  · have hraw : bytesOf entry = some raw := by
      unfold document at hfound
      split at hfound
      · split_ifs at hfound
        · cases hfound
        split at hfound
        · cases hfound
        · cases hfound; rfl
        · cases hfound
      · cases hfound
    refine ⟨raw, hraw, ?_⟩
    dsimp only at h
    split at h
    · cases h
    · obtain ⟨instant, -, h⟩ := except_bind_ok h
      split_ifs at h
      · cases h
      · cases h; rfl

/-- **Loading** begins the past of a sweep. -/
theorem meets_load (now : ℚ) : Meets (TriggerRule complete archives) (fun past' r => match r with
      | .ok (some trigger, _) => ∃ raw, past' = past ++ [.loaded raw] ∧ trigger.digest = py.sha256 raw
      | _ => past' = past) past (load (δ := δ) py now) := by
  refine meets_atomically fun s => ?_
  dsimp only [noteLoaded]
  rcases h : loadTrigger py now s.trigger with e | ⟨_ | trigger, status⟩
  · exact ⟨rfl, List.append_nil _⟩
  · exact ⟨rfl, List.append_nil _⟩
  · obtain ⟨raw, hraw, hdigest⟩ := loadTrigger_some h
    dsimp only
    rw [hraw]
    exact ⟨⟨hraw, rfl⟩, raw, rfl, hdigest⟩

/-- Programs over the disk leave the trigger alone. -/
theorem meets_onDisk (x : DiskProgram δ α) : Meets (TriggerRule complete archives)
    (fun past' _ => past' = past) past (onDisk x) :=
  @meets_zoom _ _ _ _ _ (TriggerRule complete archives) Site.disk
    (fun disk s => { s with disk := disk }) _ (fun _ _ _ => rfl) x past

/-- A look that reports a listing, a read or nothing. -/
theorem meets_look {note : Site δ → Option (Event π ρ κ)} {f : Site δ → Except PyError α}
    {Q : List (Event π ρ κ) → Except PyError α → Prop}
    (hnote : ∀ s, (∀ raw, note s ≠ some (.wrote raw)) ∧ (∀ raw, note s ≠ some (.loaded raw)) ∧
      (∀ files, note s ≠ some (.archived files)) ∧ ∀ raw, note s ≠ some (.removed raw))
    (hQ : ∀ s, Q (past ++ (note s).toList) (f s)) :
    Meets (TriggerRule complete archives) Q past (look note f) := by
  refine meets_atomically fun s => ⟨?_, hQ s⟩
  obtain ⟨h1, h2, h3, h4⟩ := hnote s
  dsimp only
  rcases hn : note s with _ | ⟨raw⟩ | ⟨raw⟩ | _ | _ | _ | ⟨files⟩ | ⟨raw⟩
  · rfl
  · exact absurd hn (h1 raw)
  · exact absurd hn (h2 raw)
  · rfl
  · rfl
  · rfl
  · exact absurd hn (h3 files)
  · exact absurd hn (h4 raw)

/-- **Consuming** is allowed after a complete sweep, if no two texts have the same digest. -/
theorem meets_consume (hinj : Function.Injective py.sha256) {fails : ConsumeStep → Bool}
    {trigger : Receipt.Trigger} {raw : Bytes} {paths : List π} {reads : List ρ} {result : κ}
    {post : List (Event π ρ κ)} (hdigest : trigger.digest = py.sha256 raw)
    (hcomplete : complete paths reads result) :
    Meets (TriggerRule complete archives) (fun _ _ => True)
      (sweptPast raw paths reads result ++ post) (consume (δ := δ) py fails trigger) := by
  refine meets_atomically fun s => ⟨?_, trivial⟩
  have hkeep : TriggerRule complete archives (sweptPast raw paths reads result ++ post) s s none := rfl
  unfold consumeTrigger
  rcases hsafe : safeBytes s.trigger with _ | found
  · dsimp only [noteRemoved]
    split_ifs with habsent
    · rw [habsent]; exact hkeep
    · exact hkeep
  obtain ⟨hfound, -⟩ := Option.filter_eq_some_iff.mp hsafe
  have hpresent : s.trigger ≠ .absent := by
    intro habsent
    rw [habsent] at hfound
    cases hfound
  dsimp only
  split_ifs with hne hunlink
  · dsimp only [noteRemoved]
    rw [if_neg hpresent]
    exact hkeep
  · dsimp only [noteRemoved]
    rw [if_neg hpresent]
    exact hkeep
  · dsimp only [noteRemoved]
    rw [if_pos rfl, hfound]
    rw [not_not, hdigest] at hne
    cases hinj hne
    exact ⟨hfound, rfl, paths, reads, result, post, rfl, hcomplete⟩

/-! ### What a run of them all does -/

/-- The trigger file after a history. -/
def current (first : Option Bytes) (history : List (Source × Event π ρ κ)) : Option Bytes :=
  history.foldl (fun now x => match x.2 with
    | .wrote raw => some raw
    | .removed _ => none
    | _ => now) first

/-- The run `i` has loaded `raw`, has read the files after that, and has swept them completely. -/
def SweptBy (complete : List π → List ρ → κ → Prop) (i : ℕ) (raw : Bytes)
    (history : List (Source × Event π ρ κ)) : Prop :=
  ∃ paths reads result post, own (some i) history = sweptPast raw paths reads result ++ post ∧
    complete paths reads result

variable {first s : Site δ} {history before after : List (Source × Event π ρ κ)} {raw : Bytes}

/-- **The events account for the trigger file.** -/
theorem trigger_eq : ∀ {history : List (Source × Event π ρ κ)} {s : Site δ},
    Trace Outside (TriggerRule complete archives) first history s →
      bytesOf s.trigger = current (bytesOf first.trigger) history := by
  intro history s h
  induction h with
  | start => rfl
  | outside _ hout ih =>
    cases hout with
    | write f =>
      simp [current, report, bytesOf]
    | disk disk =>
      simpa [report] using ih
  | @access _ _ _ event i htrace hrule ih =>
    rcases event with _ | ⟨raw⟩ | ⟨raw⟩ | _ | _ | _ | ⟨files⟩ | ⟨raw⟩
    · have hsame : _ = _ := hrule
      rw [hsame, ih]; simp [report]
    · exact hrule.elim
    · rw [hrule.2, ih]; simp [current, report]
    · have hsame : _ = _ := hrule
      rw [hsame, ih]; simp [current, report]
    · have hsame : _ = _ := hrule
      rw [hsame, ih]; simp [current, report]
    · have hsame : _ = _ := hrule
      rw [hsame, ih]; simp [current, report]
    · rw [hrule.1, ih]; simp [current, report]
    · rw [hrule.2.1]; simp [current, report, bytesOf]

/-- The file holds bytes that were written, or those it had at first. -/
theorem current_cases : ∀ (history : List (Source × Event π ρ κ)) {now : Option Bytes},
    current now history = some raw → now = some raw ∨ ∃ who, (who, .wrote raw) ∈ history
  | [], _, h => .inl h
  | (who, event) :: rest, now, h => by
    rcases current_cases rest h with hnow | ⟨who', hmem⟩
    · cases event with
      | wrote raw' =>
        cases hnow
        exact .inr ⟨who, List.mem_cons_self⟩
      | removed _ => cases hnow
      | _ => exact .inl hnow
    · exact .inr ⟨who', List.mem_cons_of_mem _ hmem⟩

/-- The bytes stay until others are written or the file is removed. -/
theorem current_kept (raw : Bytes) : ∀ history : List (Source × Event π ρ κ),
    current (some raw) history = some raw ∨ (∃ who raw', (who, .wrote raw') ∈ history) ∨
      ∃ before who raw' after, history = before ++ (who, .removed raw') :: after ∧
        current (some raw) before = some raw
  | [] => .inl rfl
  | (who, event) :: rest => by
    cases event with
    | wrote raw' => exact .inr (.inl ⟨who, raw', List.mem_cons_self⟩)
    | removed raw' => exact .inr (.inr ⟨[], who, raw', rest, rfl, rfl⟩)
    | _ =>
      rcases current_kept raw rest with h | ⟨who', raw', h⟩ |
        ⟨before, who', raw', after, rfl, h⟩
      · exact .inl h
      · exact .inr (.inl ⟨who', raw', List.mem_cons_of_mem _ h⟩)
      · exact .inr (.inr ⟨_ :: before, who', raw', after, rfl, h⟩)

/-- **Who removes the trigger**: only a run that had loaded these bytes, then read the files, and then
swept them completely. -/
theorem removed_swept {who : Source}
    (h : Trace Outside (TriggerRule complete archives) first history s)
    (hsplit : history = before ++ (who, .removed raw) :: after) :
    current (bytesOf first.trigger) before = some raw ∧
      ∃ i, who = some i ∧ SweptBy complete i raw before := by
  obtain ⟨t, t', htrace, hstep⟩ := h.moment hsplit
  rcases who with _ | i
  · cases hstep
  · obtain ⟨hraw, -, paths, reads, result, post, hpast, hcomplete⟩ := hstep
    exact ⟨(trigger_eq htrace).symm.trans hraw, i, rfl, paths, reads, result, post, hpast, hcomplete⟩

/-- A run with a sweep of `raw` has seen these bytes at the beginning. -/
theorem not_loaded {i : ℕ} (h : Trace Outside (TriggerRule complete archives) first before s)
    (hfirst : bytesOf first.trigger ≠ some raw) (hfresh : ∀ who, (who, .wrote raw) ∉ before) :
    Event.loaded raw ∉ own (some i) before := by
  intro hmem
  obtain ⟨⟨who, event⟩, hmem, rfl⟩ := List.mem_map.mp hmem
  obtain ⟨hmem, hwho⟩ := List.mem_filter.mp hmem
  obtain rfl : who = some i := of_decide_eq_true hwho
  obtain ⟨front, back, rfl⟩ := List.append_of_mem hmem
  obtain ⟨t, t', htrace, hraw, -⟩ := h.moment rfl
  rw [trigger_eq htrace] at hraw
  rcases current_cases front hraw with hnow | ⟨who, hwrote⟩
  · exact hfirst hnow
  · exact hfresh who (List.mem_append_left _ hwrote)

/-- **No trigger is lost**: bytes that were written, and not before, are still there, or others were
written after them, or after them a run loaded them, read the files, swept them completely and removed
the trigger. -/
theorem kept_or_swept (h : Trace Outside (TriggerRule complete archives) first history s)
    (hsplit : history = before ++ (none, .wrote raw) :: after)
    (hfirst : bytesOf first.trigger ≠ some raw) (hfresh : ∀ who, (who, .wrote raw) ∉ before) :
    bytesOf s.trigger = some raw ∨ (∃ who raw', (who, .wrote raw') ∈ after) ∨
      ∃ front i back, after = front ++ (some i, .removed raw) :: back ∧ SweptBy complete i raw front := by
  have hnow : current (bytesOf first.trigger) (before ++ [(none, .wrote raw)]) = some raw := by
    simp [current]
  rcases current_kept raw after with hkept | hwrote |
    ⟨front, who, raw', back, rfl, hfront⟩
  · refine .inl ?_
    rw [trigger_eq h, hsplit, List.append_cons, current, List.foldl_append]
    exact (congrArg (current · after) hnow).trans hkept
  · exact .inr (.inl hwrote)
  · refine .inr (.inr ?_)
    have hsplit' : history = (before ++ (none, .wrote raw) :: front) ++ (who, .removed raw') :: back := by
      rw [hsplit, List.append_assoc, List.cons_append]
    obtain ⟨hraw, i, rfl, paths, reads, result, post, hpast, hcomplete⟩ := removed_swept h hsplit'
    rw [List.append_cons, current, List.foldl_append] at hraw
    cases ((congrArg (current · front) hnow).trans hfront).symm.trans hraw
    refine ⟨front, i, back, rfl, paths, reads, result, post, ?_, hcomplete⟩
    have hbefore : own (some i) before = [] := by
      obtain ⟨t, t', htrace, -⟩ := h.moment hsplit
      have hno := not_loaded htrace hfirst hfresh (i := i)
      rw [own_append] at hpast
      rcases hown : own (some i) before with _ | ⟨event, more⟩
      · rfl
      · rw [hown] at hpast hno
        cases (List.cons.inj hpast).1
        exact absurd List.mem_cons_self hno
    rw [own_append, hbefore, List.nil_append] at hpast
    exact hpast

end Cloudx.Shared.Trigger
