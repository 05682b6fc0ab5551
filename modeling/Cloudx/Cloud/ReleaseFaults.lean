import Cloudx.Cloud.ReleaseRuns
import Cloudx.Lib.Fault

/-! # Selector changes that stop half way

`activate` and `rollback` replace the link `current` first, then the link `previous`, and then read
both links again and digest the artifact. Each access to the file system is a step that can fail, and
nothing that was replaced is put back. `Safe` says when an exception still means that both selectors
are as they were. -/

namespace Cloudx.Cloud.ReleaseFaults

open Cloudx.Lib.Fault (steady)
open Cloudx.Python.Text Cloudx.Python.Value
open Cloudx.Cloud.ReleaseRoot

/-! ### Steps -/

/-- The accesses of `_release_link_version`. -/
inductive LinkRead where
  | isSymlink
  | pathExists
  | resolve
  | resolveReleases
  | isFile
deriving DecidableEq

/-- The accesses of `_atomic_link`. -/
inductive LinkStep where
  | mkdir
  | unlink
  | symlink
  | replace
deriving DecidableEq

/-- The accesses of `_latest_staged_before`, the last two for each directory. -/
inductive ScanStep where
  | isDir
  | iterdir
  | entryIsDir (name : Str)
  | entryIsFile (name : Str)
deriving DecidableEq

/-- The accesses of `activate` and `rollback` to the file system: the checks, the two links, and the
`status` at the end. -/
inductive Step where
  | readCurrent (read : LinkRead)
  | readPrevious (read : LinkRead)
  | destinationIsFile
  | linkCurrent (step : LinkStep)
  | previousIsSymlink
  | scan (step : ScanStep)
  | linkPrevious (step : LinkStep)
  | statusCurrent (read : LinkRead)
  | statusPrevious (read : LinkRead)
  | digest
deriving DecidableEq

/-- `_release_link_version` -/
def linkVersionWith (fails : LinkRead → Bool) (s : Root) (selector : Selector) :
    Except PyError (Option Str) :=
  if fails .isSymlink then .error .os
  else match selector with
    | .link place =>
      if fails .resolve || fails .resolveReleases then .error .os
      else match place with
        | .elsewhere _ => .error (.rejected "cloud release points outside the release root")
        | .staged version => do
          let _ ← versionTuple version
          if fails .isFile then throw .os
          if ((s.releases.lookup version).bind Release.artifact).isSome then return some version
          else throw (.rejected "cloud release target is incomplete")
    | .absent => if fails .pathExists then .error .os else .ok none
    | .file | .directory =>
      if fails .pathExists then .error .os
      else .error (.rejected "cloud release is not a symlink")

/-- `_atomic_link`: a step that fails leaves the selector. -/
def linkWith (fails : LinkStep → Bool) (old : Selector) (target : Place) :
    Except PyError Selector :=
  if fails .mkdir || fails .unlink || fails .symlink || fails .replace then .error .os
  else atomicLink old target

/-- One directory in the loop of `_latest_staged_before`. -/
def latestStepWith (fails : ScanStep → Bool) (version : Str) (best : Option (List ℕ × Str))
    (entry : Str × Release) : Except PyError (Option (List ℕ × Str)) :=
  if fails (.entryIsDir entry.1) || fails (.entryIsFile entry.1) then .error .os
  else latestStep version best entry

/-- `_latest_staged_before` -/
def latestWith (fails : ScanStep → Bool) (host : Host) (s : Root) (version : Str) :
    Except PyError (Option Str) :=
  if fails .isDir || fails .iterdir then .error .os
  else do
    let best ← (host.iterdir s.releases).foldlM (latestStepWith fails version) none
    return best.map Prod.snd

section

variable (fails : Step → Bool) (py : Py) (host : Host) (s : Root)

/-! ### The two operations -/

/-- `status` -/
def statusWith : Except PyError Status := do
  let current ← linkVersionWith (fun read => fails (.statusCurrent read)) s s.current
  let previous ← linkVersionWith (fun read => fails (.statusPrevious read)) s s.previous
  if current.isSome && fails .digest then throw .os
  let artifact := current.bind fun version => (s.releases.lookup version).bind Release.artifact
  return ⟨current, previous, artifact.map py.sha256⟩

/-- What both do once their checks have passed: `next` is the new selector `previous`. -/
def switchTo (version : Str) (target : Place) (next : Root → Except PyError Selector) :
    Root × Except PyError Switched :=
  match linkWith (fun step => fails (.linkCurrent step)) s.current target with
  | .error e => (s, .error e)
  | .ok current =>
    let linked := { s with current := current }
    match next linked with
    | .error e => (linked, .error e)
    | .ok previous =>
      let done := { linked with previous := previous }
      (done, (statusWith fails py done).map fun observed => ⟨version, observed.previousVersion⟩)

/-- The link of `previous` to the release that `current` selected. -/
def linkOld (old : Str) : Except PyError Selector :=
  linkWith (fun step => fails (.linkPrevious step)) s.previous (.staged old)

/-- The new `previous` of `activate`. -/
def activateNext (currentVersion : Option Str) (version : Str) : Except PyError Selector :=
  match currentVersion.filter (· ≠ version) with
  | some old => linkOld fails s old
  | none =>
    if fails .previousIsSymlink then .error .os
    else match s.previous with
      | .link _ => .ok s.previous
      | previous => do
        match ← latestWith (fun step => fails (.scan step)) host s version with
        | none => return previous
        | some fallback => linkOld fails s fallback

/-- The new `previous` of `rollback`. -/
def rollbackNext (currentVersion : Option Str) (version : Str) : Except PyError Selector :=
  match currentVersion.filter (· ≠ version) with
  | some old => linkOld fails s old
  | none => .ok s.previous

/-- The checks of `activate`. -/
def activateChecksWith (version confirmation : Str) : Except PyError (Option Str) :=
  if confirmation ≠ version then
    .error (.rejected "release activation confirmation does not match the version")
  else match linkVersionWith (fun read => fails (.readCurrent read)) s s.current with
    | .error e => .error e
    | .ok currentVersion =>
      match refuseOlder version currentVersion with
      | .error e => .error e
      | .ok _ =>
        if fails .destinationIsFile then .error .os
        else if s.complete host (host.place s.names version) then .ok currentVersion
        else .error (.rejected "cloud release is not staged")

/-- The checks of `rollback`. -/
def rollbackChecksWith (confirmation : Str) : Except PyError (Str × Option Str) :=
  match linkVersionWith (fun read => fails (.readPrevious read)) s s.previous with
  | .error e => .error e
  | .ok none => .error (.rejected "no previous cloud release is available")
  | .ok (some version) =>
    if confirmation ≠ version then
      .error (.rejected "rollback confirmation does not match the previous version")
    else match linkVersionWith (fun read => fails (.readCurrent read)) s s.current with
      | .error e => .error e
      | .ok currentVersion => .ok (version, currentVersion)

/-- A call. -/
inductive Call where
  | activate (version confirmation : Str)
  | rollback (confirmation : Str)

/-- `activate` and `rollback` -/
def perform : Call → Root × Except PyError Switched
  | .activate version confirmation =>
    match activateChecksWith fails host s version confirmation with
    | .error e => (s, .error e)
    | .ok currentVersion => switchTo fails py s version (host.place s.names version) fun linked =>
        activateNext fails host linked currentVersion version
  | .rollback confirmation =>
    match rollbackChecksWith fails s confirmation with
    | .error e => (s, .error e)
    | .ok (version, currentVersion) => switchTo fails py s version (.staged version) fun linked =>
        rollbackNext fails linked currentVersion version

end

/-! ### Without a failing step -/

theorem linkVersion_steady (s : Root) (selector : Selector) :
    linkVersionWith steady s selector = releaseLinkVersion s selector := by
  rcases selector with _ | _ | _ | ⟨version | path⟩ <;> rfl

theorem linkWith_steady (old : Selector) (target : Place) :
    linkWith steady old target = atomicLink old target := rfl

theorem latestWith_steady (host : Host) (s : Root) (version : Str) :
    latestWith steady host s version = latestStagedBefore host s version := rfl

theorem status_steady (py : Py) (s : Root) : statusWith steady py s = status py s := by
  unfold statusWith status
  have hread : ∀ selector, linkVersionWith (fun _ => false) s selector =
      releaseLinkVersion s selector := linkVersion_steady s
  simp only [steady, hread, Bool.and_false]
  rfl

theorem switched_steady (py : Py) (s : Root) (version : Str) :
    (statusWith steady py s).map (fun observed => ⟨version, observed.previousVersion⟩) =
      switched py s version := by
  rw [status_steady, switched]
  rcases status py s with e | observed <;> rfl

theorem activateNext_steady (host : Host) (s : Root) (currentVersion : Option Str)
    (version : Str) :
    activateNext steady host s currentVersion version =
      previousAfter host s currentVersion version := by
  have hlink : ∀ old, linkOld steady s old = atomicLink s.previous (.staged old) := fun _ => rfl
  have hlatest : latestWith (fun step => steady (Step.scan step)) host s version =
      latestStagedBefore host s version := rfl
  unfold activateNext previousAfter
  rcases currentVersion.filter (· ≠ version) with _ | old
  · simp only [hlink, hlatest]
    rcases hp : s.previous <;> rfl
  · rfl

theorem activateChecks_steady (host : Host) (s : Root) (version confirmation : Str) :
    activateChecksWith steady host s version confirmation =
      activateChecks host s version confirmation := by
  unfold activateChecksWith activateChecks
  have hread : ∀ selector, linkVersionWith (fun _ => false) s selector =
      releaseLinkVersion s selector := linkVersion_steady s
  simp only [steady, hread, Bool.false_eq_true, if_false]
  all_goals rfl

theorem rollbackChecks_steady (s : Root) (confirmation : Str) :
    rollbackChecksWith steady s confirmation = rollbackChecks s confirmation := by
  unfold rollbackChecksWith rollbackChecks
  have hread : ∀ selector, linkVersionWith (fun _ => false) s selector =
      releaseLinkVersion s selector := linkVersion_steady s
  simp only [steady, hread]
  all_goals rfl

/-- **Without a failing step these are the operations of the release root.** -/
theorem perform_steady (py : Py) (host : Host) (s : Root) (version confirmation : Str) :
    perform steady py host s (.activate version confirmation) =
      activate py host s version confirmation ∧
    perform steady py host s (.rollback confirmation) = rollback py s confirmation := by
  constructor
  · rw [perform, activate, activateChecks_steady]
    rcases activateChecks host s version confirmation with e | currentVersion
    · rfl
    simp only [switchTo, activateNext_steady, switched_steady]
    rfl
  · rw [perform, rollback, rollbackChecks_steady]
    rcases rollbackChecks s confirmation with e | ⟨version, currentVersion⟩
    · rfl
    have hlink : linkWith (fun step => steady (Step.linkCurrent step)) s.current
        (.staged version) = atomicLink s.current (.staged version) := rfl
    simp only [switchTo, switched_steady, rollbackNext, hlink]
    rcases hc : atomicLink s.current (.staged version) with e | current
    · rfl
    rcases hold : currentVersion.filter (· ≠ version) with _ | old
    · rfl
    · rfl

/-! ### What is left behind -/

/-- If the call raises, the selectors are as they were. -/
def Keeps (s : Root) (result : Root × Except PyError Switched) : Prop :=
  (∃ e, result.2 = .error e) → result.1.current = s.current ∧ result.1.previous = s.previous

/-- No access fails, and the selector is no directory. -/
def Linkable (fails : LinkStep → Bool) (old : Selector) : Prop :=
  (∀ step, fails step = false) ∧ old ≠ .directory

theorem linkWith_ok {fails : LinkStep → Bool} {old new : Selector} {target : Place} :
    linkWith fails old target = .ok new ↔ Linkable fails old ∧ new = .link target := by
  unfold linkWith atomicLink Linkable
  constructor
  · intro h
    split_ifs at h with hfails hdirectory
    simp only [Bool.or_eq_true, not_or, Bool.not_eq_true] at hfails
    refine ⟨⟨fun step => ?_, hdirectory⟩, (Except.ok.inj h).symm⟩
    cases step
    · exact hfails.1.1.1
    · exact hfails.1.1.2
    · exact hfails.1.2
    · exact hfails.2
  · rintro ⟨⟨hfails, hdirectory⟩, rfl⟩
    rw [hfails, hfails, hfails, hfails, if_neg (by simp), if_neg hdirectory]

section

variable (fails : Step → Bool) (py : Py) (host : Host) (s : Root)

/-- The new `previous` is set to a release. -/
def SetsPrevious (release : Str) (previous : Selector) : Prop :=
  Linkable (fun step => fails (.linkPrevious step)) s.previous ∧ previous = .link (.staged release)

/-- The second half of `activate` gets by, with this `previous`: the release that `current` selected
takes its place; or it selected none or the same one, and `previous` stays if it is a link or no
staged release is below the version, else the newest of these takes its place. -/
def ActivatePrevious (currentVersion : Option Str) (version : Str) (previous : Selector) : Prop :=
  match currentVersion.filter (· ≠ version) with
  | some old => SetsPrevious fails s old previous
  | none => fails .previousIsSymlink = false ∧
    (((∃ place, s.previous = .link place) ∧ previous = s.previous) ∨
      (¬ ∃ place, s.previous = .link place) ∧ ∃ newest,
        latestWith (fun step => fails (.scan step)) host s version = .ok newest ∧
        match newest with
        | none => previous = s.previous
        | some fallback => SetsPrevious fails s fallback previous)

/-- The same of `rollback`. -/
def RollbackPrevious (currentVersion : Option Str) (version : Str) (previous : Selector) : Prop :=
  match currentVersion.filter (· ≠ version) with
  | some old => SetsPrevious fails s old previous
  | none => previous = s.previous

/-- `status` reads both new selectors as releases and digests the artifact. -/
def Reported (target : Place) (previous : Selector) : Prop :=
  (∃ version, linkVersionWith (fun read => fails (.statusCurrent read)) s (.link target) =
    .ok version) ∧
  (∃ version, linkVersionWith (fun read => fails (.statusPrevious read)) s previous = .ok version) ∧
  fails .digest = false

/-- Once `current` can be linked to the target, the rest gets by; or what fails comes before anything
has changed, as `current` selected the target already. -/
def Settles (target : Place) (next : Selector → Prop) : Prop :=
  Linkable (fun step => fails (.linkCurrent step)) s.current →
    (s.current = .link target ∨ ∃ previous, next previous) ∧
    ∀ previous, next previous → Reported fails s target previous ∨
      (s.current = .link target ∧ previous = s.previous)

/-- The checks fail, or what comes after them settles. -/
def Safe : Call → Prop
  | .activate version confirmation => ∀ currentVersion,
    activateChecksWith fails host s version confirmation = .ok currentVersion →
      Settles fails s (host.place s.names version)
        (ActivatePrevious fails host s currentVersion version)
  | .rollback confirmation => ∀ version currentVersion,
    rollbackChecksWith fails s confirmation = .ok (version, currentVersion) →
      Settles fails s (.staged version) (RollbackPrevious fails s currentVersion version)

/-! ### When the selectors are kept -/

variable {fails py host s}

theorem linkOld_ok {old : Str} {previous : Selector} :
    linkOld fails s old = .ok previous ↔ SetsPrevious fails s old previous := linkWith_ok

theorem activateNext_ok {currentVersion : Option Str} {version : Str} {previous : Selector} :
    activateNext fails host s currentVersion version = .ok previous ↔
      ActivatePrevious fails host s currentVersion version previous := by
  unfold activateNext ActivatePrevious
  rcases currentVersion.filter (· ≠ version) with _ | old
  swap
  · exact linkOld_ok
  dsimp only
  by_cases hfails : fails .previousIsSymlink = true
  · rw [if_pos hfails]
    constructor
    · intro h; cases h
    · intro h; exact absurd (h.1.symm.trans hfails) (by simp)
  rw [if_neg hfails, and_iff_right (by simpa using hfails)]
  by_cases hlink : ∃ place, s.previous = .link place
  · obtain ⟨place, hplace⟩ := hlink
    rw [hplace]
    dsimp only
    constructor
    · intro h; exact .inl ⟨⟨place, rfl⟩, (Except.ok.inj h).symm⟩
    · rintro (⟨-, rfl⟩ | ⟨hno, -⟩)
      · rfl
      · exact absurd ⟨place, rfl⟩ hno
  · have hscan : (match s.previous with
        | .link _ => (.ok s.previous : Except PyError Selector)
        | previous => do
          match ← latestWith (fun step => fails (.scan step)) host s version with
          | none => return previous
          | some fallback => linkOld fails s fallback) =
        (latestWith (fun step => fails (.scan step)) host s version).bind fun newest =>
          match newest with
          | none => .ok s.previous
          | some fallback => linkOld fails s fallback := by
      rcases hp : s.previous with _ | _ | _ | place
      · rfl
      · rfl
      · rfl
      · exact absurd ⟨place, hp⟩ hlink
    rw [hscan, or_iff_right fun h => hlink h.1, and_iff_right hlink]
    rcases latestWith (fun step => fails (.scan step)) host s version with e | newest
    · constructor
      · intro h; cases h
      · rintro ⟨_, h, -⟩; cases h
    · show (match newest with
        | none => Except.ok s.previous
        | some fallback => linkOld fails s fallback) = .ok previous ↔ _
      rcases newest with _ | fallback
      · constructor
        · intro h; exact ⟨none, rfl, (Except.ok.inj h).symm⟩
        · rintro ⟨_, h, hprevious⟩
          cases h
          exact congrArg Except.ok hprevious.symm
      · constructor
        · intro h; exact ⟨some fallback, rfl, linkOld_ok.mp h⟩
        · rintro ⟨_, h, hprevious⟩
          cases h
          exact linkOld_ok.mpr hprevious

theorem rollbackNext_ok {currentVersion : Option Str} {version : Str} {previous : Selector} :
    rollbackNext fails s currentVersion version = .ok previous ↔
      RollbackPrevious fails s currentVersion version previous := by
  unfold rollbackNext RollbackPrevious
  rcases currentVersion.filter (· ≠ version) with _ | old
  · constructor
    · intro h; exact (Except.ok.inj h).symm
    · intro h; exact congrArg Except.ok h.symm
  · exact linkOld_ok

/-- A link that is read as a release names its version. -/
theorem linkVersion_link {reads : LinkRead → Bool} {place : Place} {version : Option Str}
    (h : linkVersionWith reads s (.link place) = .ok version) : version.isSome = true := by
  unfold linkVersionWith at h
  rcases place with name | path
  · dsimp only at h
    rcases hv : versionTuple name with e | parsed
    · rw [hv] at h
      split_ifs at h <;> cases h
    · rw [hv] at h
      simp only [bind, Except.bind, pure, Except.pure] at h
      split_ifs at h
      · cases h; rfl
  · dsimp only at h
    split_ifs at h

/-- The final status succeeds when both selectors are read and the digest is taken. -/
theorem status_reported {target : Place} {previous : Selector} :
    (∃ observed, statusWith fails py { s with current := .link target, previous := previous } =
      .ok observed) ↔ Reported fails s target previous := by
  unfold statusWith Reported
  have hreleases : ∀ (reads : LinkRead → Bool) (selector : Selector),
      linkVersionWith reads { s with current := .link target, previous := previous } selector =
        linkVersionWith reads s selector := fun _ _ => rfl
  simp only [hreleases]
  rcases hc : linkVersionWith (fun read => fails (.statusCurrent read)) s (.link target) with
    e | current
  · constructor
    · rintro ⟨_, h⟩; cases h
    · rintro ⟨⟨_, h⟩, -⟩; cases h
  rcases hp : linkVersionWith (fun read => fails (.statusPrevious read)) s previous with e | version
  · constructor
    · rintro ⟨_, h⟩; cases h
    · rintro ⟨-, ⟨_, h⟩, -⟩; cases h
  have hsome := linkVersion_link hc
  by_cases hdigest : fails .digest = true
  · constructor
    · rintro ⟨_, h⟩
      simp only [bind, Except.bind, hsome, hdigest, Bool.and_self, if_true] at h
      cases h
    · rintro ⟨-, -, h⟩
      exact absurd (h.symm.trans hdigest) (by simp)
  · have hno : fails .digest = false := by simpa using hdigest
    refine iff_of_true ?_ ⟨⟨_, rfl⟩, ⟨_, rfl⟩, hno⟩
    simp only [bind, Except.bind, hno, Bool.and_false, Bool.false_eq_true, if_false]
    exact ⟨_, rfl⟩

/-- What a switch leaves behind, whatever sets `previous`. -/
theorem switchTo_keeps {version : Str} {target : Place} {next : Root → Except PyError Selector}
    (hnext : ∀ current, next { s with current := current } = next s) :
    Keeps s (switchTo fails py s version target next) ↔
      Settles fails s target fun previous => next s = .ok previous := by
  unfold Settles
  by_cases hlink : Linkable (fun step => fails (.linkCurrent step)) s.current
  swap
  · have hstop : ∃ e, switchTo fails py s version target next = (s, .error e) := by
      unfold switchTo
      rcases hl : linkWith (fun step => fails (.linkCurrent step)) s.current target with e | current
      · exact ⟨e, rfl⟩
      · exact absurd (linkWith_ok.mp hl).1 hlink
    obtain ⟨e, hstop⟩ := hstop
    rw [hstop]
    exact iff_of_true (fun _ => ⟨rfl, rfl⟩) fun h => absurd h hlink
  have hl : linkWith (fun step => fails (.linkCurrent step)) s.current target =
    .ok (.link target) := linkWith_ok.mpr ⟨hlink, rfl⟩
  rw [forall_prop_of_true hlink]
  rcases hn : next s with e | previous
  · have hstop : switchTo fails py s version target next =
        ({ s with current := .link target }, .error e) := by
      unfold switchTo
      rw [hl]
      dsimp only
      rw [hnext, hn]
    rw [hstop]
    constructor
    · intro h
      exact ⟨.inl (h ⟨e, rfl⟩).1.symm, fun _ hp => by cases hp⟩
    · rintro ⟨hsame | ⟨_, hp⟩, -⟩ -
      · exact ⟨hsame.symm, rfl⟩
      · cases hp
  · have hrun : switchTo fails py s version target next =
        ({ s with current := .link target, previous := previous },
          (statusWith fails py { s with current := .link target, previous := previous }).map
            fun observed => ⟨version, observed.previousVersion⟩) := by
      unfold switchTo
      rw [hl]
      dsimp only
      rw [hnext, hn]
    rw [hrun]
    rcases hstatus : statusWith fails py
        { s with current := .link target, previous := previous } with e | observed
    · have hno : ¬ Reported fails s target previous := by
        intro h
        obtain ⟨_, hok⟩ := (@status_reported fails py s target previous).mpr h
        cases hstatus.symm.trans hok
      constructor
      · intro h
        obtain ⟨hcurrent, hprevious⟩ := h ⟨e, rfl⟩
        refine ⟨.inl hcurrent.symm, fun _ hp => .inr ⟨hcurrent.symm, ?_⟩⟩
        cases hp
        exact hprevious
      · rintro ⟨-, h⟩ -
        obtain ⟨hcurrent, hprevious⟩ := (h previous rfl).resolve_left hno
        exact ⟨hcurrent.symm, hprevious⟩
    · refine iff_of_true ?_ ⟨.inr ⟨previous, rfl⟩, fun _ hp => .inl ?_⟩
      · rintro ⟨_, h⟩; cases h
      · cases hp
        exact status_reported.mp ⟨observed, hstatus⟩

/-- **When a call that raises leaves both selectors**: its checks fail, or `current` cannot be linked,
or nothing fails after that, or nothing has changed before it fails. -/
theorem keeps_iff (fails : Step → Bool) (py : Py) (host : Host) (s : Root) (call : Call) :
    Keeps s (perform fails py host s call) ↔ Safe fails host s call := by
  cases call with
  | activate version confirmation =>
    simp only [perform, Safe]
    rcases hc : activateChecksWith fails host s version confirmation with e | currentVersion
    · refine iff_of_true (fun _ => ⟨rfl, rfl⟩) ?_
      intro _ h; cases h
    · dsimp only
      rw [switchTo_keeps fun _ => rfl]
      simp only [activateNext_ok]
      constructor
      · intro h _ he; cases he; exact h
      · intro h; exact h _ rfl
  | rollback confirmation =>
    simp only [perform, Safe]
    rcases hc : rollbackChecksWith fails s confirmation with e | ⟨version, currentVersion⟩
    · refine iff_of_true (fun _ => ⟨rfl, rfl⟩) ?_
      intro _ _ h; cases h
    · dsimp only
      rw [switchTo_keeps fun _ => rfl]
      simp only [rollbackNext_ok]
      constructor
      · intro h _ _ he; cases he; exact h
      · intro h; exact h _ _ rfl

end

/-! ### A switch that stops half way -/

open Cloudx.Cloud.ReleaseRuns in
/-- **`current` is replaced and the call raises**: by an activation whose version is no version, and
by a rollback whose second link fails. -/
theorem half_switched :
    ¬ Keeps emptyRoot (perform steady samplePy sampleHost emptyRoot
        (.activate (lit "/srv/build") (lit "/srv/build"))) ∧
      ¬ Keeps sampleRoot (perform (Lib.Fault.only (Step.linkPrevious .replace)) samplePy sampleHost
        sampleRoot (.rollback (lit "1.0.0"))) := by
  constructor
  · intro h
    have hraises : (perform steady samplePy sampleHost emptyRoot
        (.activate (lit "/srv/build") (lit "/srv/build"))).2 =
        .error (.rejected "cloud release points outside the release root") := by decide +kernel
    exact absurd (h ⟨_, hraises⟩).1 (by decide +kernel)
  · intro h
    have hraises : (perform (Lib.Fault.only (Step.linkPrevious .replace)) samplePy sampleHost
        sampleRoot (.rollback (lit "1.0.0"))).2 = .error .os := by decide +kernel
    exact absurd (h ⟨_, hraises⟩).1 (by decide +kernel)

end Cloudx.Cloud.ReleaseFaults
