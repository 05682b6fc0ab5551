import Cloudx.Lib.Rollback
import Cloudx.Local.Importer

/-! # How a local import writes its files

`_write_plans` with every step that can fail, its dry run, and the auth directory as it may be found:
absent, no directory, or with other things in it than regular files. `_complete_import` puts this
behind the deduplication and the planning.

The rollback puts back what the targets held before the first write, the last write first. It goes on
when one of its own writes fails, and says so (`all_or_nothing`). -/

namespace Cloudx.Local.ImportWrites

open Cloudx.Lib.Memo Cloudx.Lib.Store Cloudx.Lib.Rollback
open Cloudx.Python.Text Cloudx.Python.Value Cloudx.Python.Dump
open Cloudx.Shared Cloudx.Shared.Credential Cloudx.Shared.Source
open Cloudx.Local.Import Cloudx.Local.Importer

/-! ### The auth directory -/

/-- The steps of `_write_plans` that can fail: the lock, the reading of a target, a write, the reading
of a written file and its two checks, and a write of the rollback. -/
inductive Step where
  | lock
  | inspect (i : ℕ)
  | write (i : ℕ)
  | read (i : ℕ)
  | compare (i : ℕ)
  | credential (i : ℕ)
  | restore (i : ℕ)
deriving DecidableEq

/-- The auth directory with its regular files. -/
abbrev AuthDir := Found FileName File

variable (py : Py) (fails : Step → Bool)

/-! ### The targets -/

/-- Whether a target holds what is planned, as JSON. -/
def sameJson (payload : File) : Option File → Except PyError Bool
  | none => .ok false
  | some original => (canonicalJson py original).map fun raw => decide (raw = payload.bytes)

/-- `_target_state` of the plans, from number `i` on. -/
def statesFrom (others : Finset FileName) (dir : Dir FileName File) :
    ℕ → List PlannedFile → Except PyError (List Target)
  | _, [] => .ok []
  | i, plan :: rest =>
    match FileName.ofStr? plan.name with
    | none => .error .os
    | some name =>
      if name ∈ others then .error (.refused "target_unsafe"
        (lit "target auth path is not a regular file: " ++ plan.name))
      else if fails (.inspect i) then .error (.refused "target_unreadable"
        (lit "target auth file could not be read: " ++ plan.name))
      else do
        let unchanged ← sameJson py plan.payload (dir.lookup name)
        let more ← statesFrom others dir (i + 1) rest
        return ⟨name, plan.payload, dir.lookup name, unchanged⟩ :: more

/-- A target that holds something else. -/
def isConflict (t : Target) : Bool := t.original.isSome && !t.unchanged

/-- The states of the targets, if none of them is in the way. -/
def checkedStates (force : Bool) (auth : AuthDir) (plans : List PlannedFile) :
    Except PyError (List Target) :=
  match statesFrom py fails auth.others auth.files 0 plans with
  | .error e => .error e
  | .ok states => match states.find? isConflict with
    | some conflict =>
      if force then .ok states
      else .error (.refused "target_conflict"
        (lit "target auth JSON already exists: " ++ conflict.name.text))
    | none => .ok states

/-- `written`, `unchanged` and `verified` -/
structure Counts where
  written : ℕ
  unchanged : ℕ
  verified : ℕ
deriving DecidableEq

/-- `LocalImportError("target_unsafe", …)` for an auth directory that is none -/
def notDirectory : PyError :=
  .refused "target_unsafe" (lit "local CPA auth directory is not a regular directory")

/-- `_write_plans` with `dry_run` -/
def dryRun (force : Bool) (plans : List PlannedFile) (auth : AuthDir) : Except PyError Counts :=
  match auth with
  | .blocked => .error notDirectory
  | .absent => .ok ⟨plans.length, 0, 0⟩
  | .present others files =>
    (checkedStates py fails force (.present others files) plans).map fun states =>
      let unchanged := states.countP (·.unchanged)
      ⟨plans.length - unchanged, unchanged, 0⟩

/-! ### The writes and the rollback -/

/-- `LocalImportError("write_failed", …)` -/
def writeFailed : PyError :=
  .refused "write_failed" (lit "local CPA auth files could not be written atomically")

/-- `LocalImportError("rollback_failed", …)` -/
def rollbackFailed : PyError :=
  .refused "rollback_failed" (lit "local CPA import failed and rollback was incomplete")

/-- The second pass of the `try` block, from change number `i` on. -/
def verifyFrom (dir : Dir FileName File) : ℕ → List Target → Except PyError Unit
  | _, [] => .ok ()
  | i, t :: rest =>
    if fails (.read i) then .error .os
    else if fails (.compare i) ∨ (dir.lookup t.name).map File.bytes ≠ some t.payload.bytes then
      .error (.refused "verification_failed" (lit "written auth file failed byte verification"))
    else if fails (.credential i) ∨ !isCredential py t.payload then
      .error (.refused "verification_failed"
        (lit "written auth file failed credential verification"))
    else verifyFrom dir (i + 1) rest

/-- The error that a failed `try` block ends with, when its rollback is complete. -/
def reported : PyError → PyError
  | .refused code message => .refused code message
  | _ => writeFailed

/-- The write of a target, as the rollback remembers it. -/
def toWrite (t : Target) : Write FileName File := ⟨t.name, t.original, t.payload⟩

/-- The writes of some changes, up to the first that fails. -/
def writes (changes : List Target) (dir : Dir FileName File) :
    Bool × List (Write FileName File) × Dir FileName File :=
  perform (fun i => fails (.write i)) 0 (changes.map toWrite) dir

/-- The rollback of some writes: whether all of it was done. -/
def takenBack (completed : List (Write FileName File)) (dir : Dir FileName File) :
    Bool × Dir FileName File :=
  revert (fun i => fails (.restore i)) 0 completed dir

/-- The `try` block: the writes and their checks. -/
def attempt (changes : List Target) (dir : Dir FileName File) : Except PyError Unit :=
  if (writes fails changes dir).1 then verifyFrom py fails (writes fails changes dir).2.2 0 changes
  else .error .os

/-- The `try` block and its handler, for `total` plans. -/
def carryOut (total : ℕ) (changes : List Target) (dir : Dir FileName File) :
    Except PyError Counts × Dir FileName File :=
  let written := writes fails changes dir
  match attempt py fails changes dir with
  | .ok () => (.ok ⟨changes.length, total - changes.length, changes.length⟩, written.2.2)
  | .error e =>
    let undone := takenBack fails written.2.1 written.2.2
    (.error (if undone.1 then reported e else rollbackFailed), undone.2)

/-- The changes of checked states. -/
def changesOf (states : List Target) : List Target := states.filter fun t => !t.unchanged

/-- The part of `_write_plans` under the import lock. -/
def underLock (force : Bool) (plans : List PlannedFile) (auth : AuthDir) :
    Except PyError Counts × AuthDir :=
  if fails .lock then (.error (.refused "lock_unavailable"
    (lit "local CPA import lock could not be opened")), auth.holding auth.files)
  else match checkedStates py fails force auth plans with
    | .error e => (.error e, auth.holding auth.files)
    | .ok states =>
      let r := carryOut py fails states.length (changesOf states) auth.files
      (r.1, auth.holding r.2)

/-- `_write_plans` without `dry_run` -/
def writePlansWith (force : Bool) (plans : List PlannedFile) (auth : AuthDir) :
    Except PyError Counts × AuthDir :=
  match auth with
  | .blocked => (.error notDirectory, .blocked)
  | auth => underLock py fails force plans auth

/-- The writes that a call carries out under the lock, whether or not they are taken back. -/
def carriedOut (force : Bool) (plans : List PlannedFile) (auth : AuthDir) :
    List (Write FileName File) :=
  if fails .lock then []
  else match checkedStates py fails force auth plans with
    | .error _ => []
    | .ok states => (writes fails (changesOf states) auth.files).2.1

/-! ### The whole import -/

/-- The counts that an import reports: what it has parsed, how much of that was there twice, and
those of its writes. -/
structure Report where
  parsed : ℕ
  duplicates : ℕ
  counts : Counts
deriving DecidableEq

/-- The records that an import keeps, and their files. -/
def planImport (opts : Options) (records : List (Dict × Str)) :
    Except PyError (List (Dict × Str) × List PlannedFile) := do
  let unique ← deduplicate py [] records
  match opts.missing with
  | some reason =>
    if unique.any fun x => AgentIdentity.isAgentIdentity py x.1 then
      .error (.refused "external_capability_missing" reason)
  | none => pure ()
  let plans ← planFiles py opts.isalnum opts.namePrefix 1 [] unique
  return (unique, plans)

/-- `_complete_import` of the collected records -/
def completeImport (opts : Options) (dry : Bool) (records : List (Dict × Str)) (auth : AuthDir) :
    Except PyError Report × AuthDir :=
  match planImport py opts records with
  | .error e => (.error e, auth)
  | .ok (unique, plans) =>
    let report (counts : Counts) : Report :=
      ⟨records.length, records.length - unique.length, counts⟩
    if dry then ((dryRun py fails opts.force plans auth).map report, auth)
    else
      let r := writePlansWith py fails opts.force plans auth
      (r.1.map report, r.2)

/-- `import_text`, `import_path` of texts; `cards` gives the entries of raw card lines, which a dry
run does not refresh. -/
def importAll (dec : Decoder) (cards : Bool → Str → Except PyError (List (Dict × Str)))
    (opts : Options) (dry : Bool) (sources : List SourceText) (auth : AuthDir) :
    Except PyError Report × AuthDir :=
  match collect py dec (cards dry) sources with
  | .error e => (.error e, auth)
  | .ok records => completeImport py fails opts dry records auth

variable {py} {fails}

/-! ### The states of the targets -/

theorem ofStr?_some {s : Str} {name : FileName} : FileName.ofStr? s = some name ↔ name.text = s := by
  constructor
  · intro h
    unfold FileName.ofStr? at h
    split_ifs at h
    rw [← Option.some.inj h]
  · rintro rfl
    exact ofStr?_name name

/-- What the state of a planned file holds, in a directory with these other things. -/
structure Fits (py : Py) (others : Finset FileName) (dir : Dir FileName File) (plan : PlannedFile)
    (t : Target) : Prop where
  name : t.name.text = plan.name
  payload : t.payload = plan.payload
  original : t.original = dir.lookup t.name
  regular : t.name ∉ others
  unchanged : sameJson py plan.payload (dir.lookup t.name) = .ok t.unchanged

variable {others : Finset FileName} {dir : Dir FileName File}

theorem statesFrom_ok : ∀ {plans : List PlannedFile} {i : ℕ} {states : List Target},
    statesFrom py fails others dir i plans = .ok states → List.Forall₂ (Fits py others dir) plans states
  | [], _, states, h => by
    rw [← Except.ok.inj h]
    exact .nil
  | plan :: rest, i, states, h => by
    unfold statesFrom at h
    rcases hname : FileName.ofStr? plan.name with _ | name
    · rw [hname] at h
      exact absurd h (by simp)
    rw [hname] at h
    simp only at h
    split_ifs at h with hother hinspect
    obtain ⟨unchanged, hsame, h⟩ := except_bind_ok h
    obtain ⟨more, hmore, h⟩ := except_bind_ok h
    rw [← Except.ok.inj h]
    exact .cons ⟨ofStr?_some.mp hname, rfl, rfl, hother, hsame⟩ (statesFrom_ok hmore)

/-- The states are found if no target cannot be read. -/
theorem statesFrom_of (h : ∀ i, fails (.inspect i) = false) : ∀ {plans : List PlannedFile} {i : ℕ}
    {states : List Target}, List.Forall₂ (Fits py others dir) plans states →
      statesFrom py fails others dir i plans = .ok states
  | [], _, _, .nil => rfl
  | plan :: rest, i, t :: states, .cons hfits hrest => by
    unfold statesFrom
    rw [ofStr?_some.mpr hfits.name]
    simp only
    rw [if_neg hfits.regular, if_neg (by simp [h i]), hfits.unchanged,
      statesFrom_of h hrest, ← hfits.payload, ← hfits.original]
    rfl

theorem checkedStates_ok {force : Bool} {auth : AuthDir} {plans : List PlannedFile}
    {states : List Target} (h : checkedStates py fails force auth plans = .ok states) :
    List.Forall₂ (Fits py auth.others auth.files) plans states ∧
      (force = false → ∀ t ∈ states, isConflict t = false) := by
  unfold checkedStates at h
  rcases hstates : statesFrom py fails auth.others auth.files 0 plans with e | found
  · rw [hstates] at h
    exact absurd h (by simp)
  rw [hstates] at h
  simp only at h
  have hfound := statesFrom_ok hstates
  rcases hconflict : found.find? isConflict with _ | t
  · rw [hconflict] at h
    rw [← Except.ok.inj h]
    exact ⟨hfound, fun _ t ht => by simpa using List.find?_eq_none.mp hconflict t ht⟩
  · rw [hconflict] at h
    simp only at h
    split_ifs at h with hforce
    rw [← Except.ok.inj h]
    exact ⟨hfound, fun hf => absurd (hforce.symm.trans hf) (by simp)⟩

/-- The changes remember what the directory holds. -/
theorem recorded_changesOf {plans : List PlannedFile} {states : List Target}
    (h : List.Forall₂ (Fits py others dir) plans states) :
    Recorded dir ((changesOf states).map toWrite) := by
  intro w hw
  obtain ⟨t, ht, rfl⟩ := List.mem_map.mp hw
  obtain ⟨i, hi, hget⟩ := List.getElem_of_mem (List.mem_filter.mp ht).1
  have hfits := h.get (by rw [h.length_eq]; exact hi) hi
  rw [List.get_eq_getElem, List.get_eq_getElem, hget] at hfits
  exact hfits.original

/-! ### A call that succeeds -/

/-- What a call that succeeds has done: all changes of its targets are written and have passed their
checks. -/
structure Written (py : Py) (fails : Step → Bool) (auth auth' : AuthDir) (states : List Target)
    (counts : Counts) : Prop where
  all : (writes fails (changesOf states) auth.files).1 = true
  verified : verifyFrom py fails auth'.files 0 (changesOf states) = .ok ()
  dir : auth' = auth.holding (writes fails (changesOf states) auth.files).2.2
  counts : counts = ⟨(changesOf states).length, states.length - (changesOf states).length,
    (changesOf states).length⟩

theorem writePlansWith_ok {force : Bool} {plans : List PlannedFile} {auth auth' : AuthDir}
    {counts : Counts} (h : writePlansWith py fails force plans auth = (.ok counts, auth')) :
    auth ≠ .blocked ∧ ∃ states, checkedStates py fails force auth plans = .ok states ∧
      Written py fails auth auth' states counts := by
  obtain ⟨hne, h⟩ : auth ≠ .blocked ∧ underLock py fails force plans auth = (.ok counts, auth') := by
    rcases auth with _ | _ | ⟨others, files⟩
    case blocked => exact absurd (Prod.mk.inj h).1 (by simp)
    all_goals exact ⟨by simp, h⟩
  unfold underLock at h
  split_ifs at h
  · exact absurd (Prod.mk.inj h).1 (by simp)
  rcases hstates : checkedStates py fails force auth plans with e | states
  · rw [hstates] at h
    exact absurd (Prod.mk.inj h).1 (by simp)
  rw [hstates] at h
  simp only [carryOut] at h
  refine ⟨hne, states, rfl, ?_⟩
  split at h
  case h_2 => exact absurd (Prod.mk.inj h).1 (by simp)
  next hattempt =>
  obtain ⟨hcounts, hauth⟩ := Prod.mk.inj h
  unfold attempt at hattempt
  split_ifs at hattempt with hall
  exact ⟨hall, hauth ▸ hattempt, hauth.symm, (Except.ok.inj hcounts).symm⟩

/-! ### All or nothing -/

/-- A `try` block that fails is undone if its rollback is complete, and says so if it is not. -/
theorem carryOut_error {total : ℕ} {changes : List Target} {dir' : Dir FileName File} {e : PyError}
    (hrec : Recorded dir (changes.map toWrite))
    (h : carryOut py fails total changes dir = (.error e, dir')) :
    (e = rollbackFailed ∧ ∃ i < (writes fails changes dir).2.1.length, fails (.restore i) = true) ∨
      (dir' = dir ∧ ∀ i < (writes fails changes dir).2.1.length, fails (.restore i) = false) := by
  unfold carryOut at h
  simp only at h
  split at h
  · exact absurd h (by simp)
  obtain ⟨he, hdir⟩ := Prod.mk.inj h
  have hdone : (takenBack fails (writes fails changes dir).2.1 (writes fails changes dir).2.2).1 = true ↔
      ∀ j < (writes fails changes dir).2.1.length, fails (.restore (0 + j)) = false :=
    revert_done _ 0 _
  simp only [Nat.zero_add] at hdone
  by_cases hall : (takenBack fails (writes fails changes dir).2.1 (writes fails changes dir).2.2).1 = true
  · refine .inr ⟨?_, hdone.mp hall⟩
    rw [← hdir]
    exact rollback hrec hall
  · rw [if_neg hall] at he
    refine .inl ⟨(Except.error.inj he).symm, ?_⟩
    have hsome := mt hdone.mpr hall
    push Not at hsome
    simpa using hsome

theorem underLock_error {force : Bool} {plans : List PlannedFile} {auth auth' : AuthDir} {e : PyError}
    (h : underLock py fails force plans auth = (.error e, auth')) :
    (e = rollbackFailed ∧
      ∃ i < (carriedOut py fails force plans auth).length, fails (.restore i) = true) ∨
    (auth' = auth.holding auth.files ∧
      ∀ i < (carriedOut py fails force plans auth).length, fails (.restore i) = false) := by
  unfold underLock at h
  unfold carriedOut
  by_cases hlock : fails .lock = true
  · rw [if_pos hlock] at h ⊢
    exact .inr ⟨(Prod.mk.inj h).2.symm, by simp⟩
  rw [if_neg hlock] at h ⊢
  rcases hstates : checkedStates py fails force auth plans with e' | states
  · rw [hstates] at h
    exact .inr ⟨(Prod.mk.inj h).2.symm, by simp⟩
  rw [hstates] at h
  obtain ⟨herror, hauth⟩ := Prod.mk.inj h
  have hrec := recorded_changesOf (checkedStates_ok hstates).1
  rcases carryOut_error hrec (Prod.ext herror rfl) with hfailed | ⟨hsame, hdone⟩
  · exact .inl hfailed
  · exact .inr ⟨hauth.symm.trans (congrArg auth.holding hsame), hdone⟩

/-- **All or nothing**: a call that raises leaves every target as it was, unless a write of its
rollback has failed. Then it says so. -/
theorem all_or_nothing {force : Bool} {plans : List PlannedFile} {auth auth' : AuthDir} {e : PyError}
    (h : writePlansWith py fails force plans auth = (.error e, auth')) :
    ((∀ i, fails (.restore i) = false) → auth'.files = auth.files) ∧
    (auth ≠ .blocked →
      (∃ i < (carriedOut py fails force plans auth).length, fails (.restore i) = true) →
        e = rollbackFailed) := by
  rcases auth with _ | _ | ⟨others, files⟩
  case blocked => exact ⟨fun _ => congrArg Found.files (Prod.mk.inj h).2.symm, fun hne => absurd rfl hne⟩
  all_goals
    rcases underLock_error h with ⟨he, i, hi, hf⟩ | ⟨rfl, hdone⟩
    · exact ⟨fun hnone => absurd (hnone i) (by simp [hf]), fun _ _ => he⟩
    · refine ⟨fun _ => rfl, fun _ => ?_⟩
      rintro ⟨i, hi, hf⟩
      exact absurd (hdone i hi) (by simp [hf])

/-- Two planned files. -/
def samplePlans : List PlannedFile := [⟨lit "a.json", sampleFlat⟩, ⟨lit "b.json", sampleFlat⟩]

/-- A directory that holds another document under the first name. -/
def sampleAuth : AuthDir := .present ∅ (Finmap.singleton aJson (jsonFile onePy false []))

/-- The second write fails, and so does what is to be undone if `undoFails`. -/
def secondFails (undoFails : Bool) : Step → Bool
  | .write 1 => true
  | .restore _ => undoFails
  | _ => false

/-- The import of two files whose second write fails. -/
def sampleWrites (undoFails : Bool) : Except PyError Counts × AuthDir :=
  writePlansWith onePy (secondFails undoFails) true samplePlans sampleAuth

/-- The first file gets its old bytes back, and the call says so if it does not. -/
theorem second_write_fails : (sampleWrites false).1 = .error writeFailed ∧
    (sampleWrites false).2.files = sampleAuth.files ∧ (sampleWrites true).1 = .error rollbackFailed := by
  have hsteady : (sampleWrites false).1 = .error writeFailed := by decide +kernel
  obtain ⟨e, he⟩ : ∃ e, (sampleWrites true).1 = .error e := ⟨rollbackFailed, by decide +kernel⟩
  have hundone := (all_or_nothing (Prod.ext hsteady rfl)).1 fun _ => rfl
  have hstuck := (all_or_nothing (Prod.ext he rfl)).2 (by simp [sampleAuth]) ⟨0, by decide +kernel, rfl⟩
  exact ⟨hsteady, hundone, he.trans (congrArg _ hstuck)⟩

end Cloudx.Local.ImportWrites
