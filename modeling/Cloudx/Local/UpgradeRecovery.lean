import Cloudx.Local.Updater

/-! # What a failed upgrade leaves behind

The recovery from a failed activation is the ordinary rollback, which exchanges the two selectors. Once
the activation has replaced both, the release that failed becomes the previous one; when it stopped
between them, the rollback either refuses or exchanges what is there. `Recoverable` says when the
message that the prior release was restored is true of both selectors. -/

namespace Cloudx.Local.UpgradeRecovery

open Cloudx.Python.Text Cloudx.Python.Value
open Cloudx.Lib.Checks (bind_ok_iff)
open Cloudx.Cloud.ReleaseRoot (Place Selector atomicLink)
open Cloudx.Cloud.ReleaseFaults (LinkStep linkWith linkWith_ok Linkable)
open Cloudx.Local.Updater

variable {fails : Step → Bool} {disk : Disk} {s : Root} {available : Str}

/-! ### What the checks establish -/

/-- An available release that is newer is not the current one, which is there. -/
theorem upgradeChecks_newer {current : Str} (h : upgradeChecks disk s available = .ok (current, true)) :
    ∃ place, s.current = .link place ∧ place.name = current ∧ s.present disk place = true ∧
      current ≠ available := by
  unfold upgradeChecks at h
  simp only [bind_ok_iff] at h
  obtain ⟨present, hpresent, offered, hoffered, active, hactive, hrest⟩ := h
  have hplace : ∃ place, s.current = .link place ∧ place.name = present ∧
      s.present disk place = true := by
    unfold localCurrent at hpresent
    rcases hc : s.current with _ | _ | _ | place
    case link =>
      rw [hc] at hpresent
      dsimp only at hpresent
      split_ifs at hpresent with hgone hname
      exact ⟨place, rfl, Except.ok.inj hpresent, by simpa using hgone⟩
    all_goals rw [hc] at hpresent; cases hpresent
  have hpair : present = current ∧ offered ≠ active := by
    obtain ⟨_, -, hpure⟩ := hrest
    have hboth := Prod.mk.inj (Except.ok.inj hpure)
    exact ⟨hboth.1, of_decide_eq_true hboth.2⟩
  obtain ⟨place, hc, hname, hpresent'⟩ := hplace
  refine ⟨place, hc, hname.trans hpair.1, hpresent', ?_⟩
  rintro rfl
  rw [← hpair.1] at hoffered
  exact hpair.2 (Except.ok.inj (hoffered.symm.trans hactive))

/-- Staging leaves the selectors, and all that is there apart from the staged release. -/
theorem stage_ok {verified : Except PyError Unit} {s' : Root} {status : Str}
    (h : stage s verified available = (s', .ok status)) :
    s'.current = s.current ∧ s'.previous = s.previous ∧
      s'.present disk (.staged available) = true ∧
      ∀ place, place ≠ .staged available → s'.present disk place = s.present disk place := by
  unfold stage at h
  rcases verified with e | _
  · cases h
  dsimp only at h
  rcases hl : s.releases.lookup available with _ | _ | _
  · rw [hl] at h
    cases h
    refine ⟨rfl, rfl, ?_, fun place hne => ?_⟩
    · simp [Root.present]
    · cases place with
      | staged name =>
        have hname : name ≠ available := fun he => hne (by rw [he])
        simp only [Root.present, List.lookup_cons, beq_false_of_ne hname]
      | elsewhere path => rfl
  · rw [hl] at h; cases h
  · rw [hl] at h
    cases h
    refine ⟨rfl, rfl, ?_, fun _ _ => rfl⟩
    simp [Root.present, hl]

theorem stage_selectors (verified : Except PyError Unit) :
    (stage s verified available).1.current = s.current ∧
      (stage s verified available).1.previous = s.previous := by
  unfold stage
  rcases verified with e | _
  · exact ⟨rfl, rfl⟩
  · dsimp only
    rcases s.releases.lookup available with _ | _ | _ <;> exact ⟨rfl, rfl⟩

theorem applyChecks_ok {version confirmation : Str} {old : Option Place}
    (h : applyChecks fails s version confirmation = .ok old) : old = resolved s.current := by
  unfold applyChecks at h
  simp only [bind_ok_iff] at h
  obtain ⟨_, -, _, -, _, -, _, -, _, -, _, -, _, -, _, -, _, -, _, -, _, -, hpure⟩ := h
  exact (Except.ok.inj hpure).symm

/-! ### Where the activation stops -/

/-- No access after the links fails, and the hook is installed. -/
structure Quiet (fails : Step → Bool) : Prop where
  bin : fails .mkdirBin = false
  launcher : ∀ name ∈ launchers, ∀ step, fails (.linkLauncher name step) = false
  reads : fails .reportIsSymlink = false ∧ fails .reportResolve = false
  hook : fails .installHook = false

theorem access_ok {step : Step} : access fails step = .ok () ↔ fails step = false := by
  unfold access
  split_ifs with h
  · exact iff_of_false (fun he => by cases he) (by simp [h])
  · exact iff_of_true rfl (by simpa using h)

theorem linkLauncher_ok {name : Str} :
    linkLauncher fails name = .ok () ↔ ∀ step, fails (.linkLauncher name step) = false := by
  unfold linkLauncher
  simp only [bind_ok_iff]
  constructor
  · rintro ⟨_, h1, _, h2, _, h3, h4⟩ step
    cases step
    · exact access_ok.mp h1
    · exact access_ok.mp h2
    · exact access_ok.mp h3
    · exact access_ok.mp h4
  · intro h
    exact ⟨(), access_ok.mpr (h _), (), access_ok.mpr (h _), (), access_ok.mpr (h _),
      access_ok.mpr (h _)⟩

theorem linkLaunchers_ok : ∀ names : List Str, names.forM (linkLauncher fails) = .ok () ↔
    ∀ name ∈ names, ∀ step, fails (.linkLauncher name step) = false
  | [] => iff_of_true rfl (by simp)
  | name :: names => by
    have hcons : (name :: names).forM (linkLauncher fails) =
        (linkLauncher fails name >>= fun _ => names.forM (linkLauncher fails)) := rfl
    rw [hcons, bind_ok_iff, List.forall_mem_cons, ← linkLauncher_ok,
      ← linkLaunchers_ok names]
    constructor
    · rintro ⟨_, h, h'⟩; exact ⟨h, h'⟩
    · rintro ⟨h, h'⟩; exact ⟨(), h, h'⟩

/-- The rest of the activation, once `previous` is a link. -/
theorem finish_ok {place : Place} (hprevious : s.previous = .link place) :
    (∃ reported, finish fails s = .ok reported) ↔ Quiet fails := by
  unfold finish
  simp only [bind_ok_iff, hprevious, accessLink, resolved, Option.isSome_some, if_true]
  constructor
  · rintro ⟨_, _, h1, _, h2, _, h3, _, h4, _, h5, -⟩
    exact ⟨access_ok.mp h1, (linkLaunchers_ok _).mp h2, ⟨access_ok.mp h3, access_ok.mp h4⟩,
      access_ok.mp h5⟩
  · intro h
    exact ⟨_, (), access_ok.mpr h.bin, (), (linkLaunchers_ok _).mpr h.launcher, (),
      access_ok.mpr h.reads.1, (), access_ok.mpr h.reads.2, (), access_ok.mpr h.hook, rfl⟩

/-! ### The recovery -/

/-- The message of the recovery, once the activation has set `current` to this place. -/
theorem verify_restored {place : Place} {current : Str} (hc : s.current = .link place)
    (hname : place.name = current) :
    verifyRestored disk s current = restoredPrior ↔ s.present disk place = true := by
  unfold verifyRestored currentName
  rw [hc]
  dsimp only
  by_cases hpresent : s.present disk place = true
  · rw [if_pos hpresent]
    refine iff_of_true ?_ hpresent
    dsimp only
    rw [if_neg (not_not.mpr hname)]
  · rw [if_neg hpresent]
    exact iff_of_false (show ¬ alsoFailed = restoredPrior by decide) hpresent

/-- Nothing was replaced. -/
theorem recover_unchanged {place : Place} {current : Str} (hc : s.current = .link place)
    (hname : place.name = current) (hpresent : s.present disk place = true)
    (hne : current ≠ available) : (recover disk s available current).1 = s := by
  have hcurrent : currentName disk s = .ok current := by
    unfold currentName
    rw [hc]
    dsimp only
    rw [if_pos hpresent, hname]
  unfold recover
  rw [hcurrent]
  dsimp only
  rw [if_neg hne, if_neg (not_not.mpr rfl)]

/-- `current` was replaced: the recovery is the rollback. -/
theorem recover_replaced {current : Str} (hc : s.current = .link (.staged available))
    (hstaged : s.present disk (.staged available) = true) (hne : current ≠ available) :
    (∃ target, s.previous = .link target ∧ target.name = current ∧
      recover disk s available current = ({ s with
        current := .link target, previous := .link (.staged available) },
        verifyRestored disk { s with
          current := .link target, previous := .link (.staged available) } current)) ∨
    ((∀ target, s.previous = .link target → target.name ≠ current) ∧
      recover disk s available current = (s, alsoFailed)) := by
  have hcurrent : currentName disk s = .ok available := by
    unfold currentName
    rw [hc]
    dsimp only
    exact (if_pos hstaged).trans rfl
  have hok : ∀ s', rollback s current = (s', .ok ()) →
      recover disk s available current = (s', verifyRestored disk s' current) := by
    intro s' hs'
    unfold recover
    rw [hcurrent, hs']
    exact (if_pos rfl).trans rfl
  have hfailed : ∀ s' e, rollback s current = (s', .error e) →
      recover disk s available current = (s', alsoFailed) := by
    intro s' e hs'
    unfold recover
    rw [hcurrent, hs']
    exact (if_pos rfl).trans rfl
  by_cases htarget : ∃ target, s.previous = .link target ∧ target.name = current
  · obtain ⟨target, hp, hname⟩ := htarget
    have hother : Place.staged available ≠ target := by
      rintro rfl
      exact hne hname.symm
    have hrollback : rollback s current = ({ s with
        current := .link target, previous := .link (.staged available) }, .ok ()) := by
      unfold rollback
      rw [hp, hc]
      simp only [resolved, Option.filter_some, hname, decide_true, if_true, atomicLink,
        reduceCtorEq, if_false, hother, ne_eq, not_false_eq_true]
    exact .inl ⟨target, hp, hname, hok _ hrollback⟩
  · refine .inr ⟨fun target hp hname => htarget ⟨target, hp, hname⟩, ?_⟩
    have hfilter : (resolved s.previous).filter (·.name = current) = none := by
      rcases hp : s.previous with _ | _ | _ | target
      case link =>
        have hname : target.name ≠ current := fun he => htarget ⟨target, hp, he⟩
        simp only [resolved, Option.filter_some, hname, decide_false, Bool.false_eq_true, if_false]
      all_goals rfl
    refine hfailed s (.rejected "requested local rollback version is not the previous release") ?_
    unfold rollback
    rw [hfilter]

/-! ### When both selectors are restored -/

/-- A result with the message that the prior release was restored has both selectors as before. -/
def Restores (s : Root) (result : Root × Except PyError Upgraded) : Prop :=
  result.2 = .error restoredPrior →
    result.1.current = s.current ∧ result.1.previous = s.previous

/-- The upgrade gets as far as replacing `current`, which was at this place. -/
structure Switches (fails : Step → Bool) (disk : Disk) (s : Root) (available : Str)
    (checkOnly : Bool) (verified : Except PyError Unit) (place : Place) : Prop where
  current : s.current = .link place
  newer : ∃ current, upgradeChecks disk s available = .ok (current, true)
  applies : checkOnly = false
  stages : ∃ status, (stage s verified available).2 = .ok status
  checks : ∃ old, applyChecks fails (stage s verified available).1 available available = .ok old
  links : Linkable (fun step => fails (.linkCurrent step)) s.current

/-- Once `current` is replaced: when `previous` can be replaced too, nothing fails after that or
`previous` selected the available release before; when it cannot be, it does not select a release of
the name of the current one that is there. -/
def Recoverable (fails : Step → Bool) (disk : Disk) (s : Root) (available : Str)
    (checkOnly : Bool) (verified : Except PyError Unit) : Prop :=
  ∀ place, Switches fails disk s available checkOnly verified place →
    (Linkable (fun step => fails (.linkPrevious step)) s.previous →
      Quiet fails ∨ s.previous = .link (.staged available)) ∧
    (¬ Linkable (fun step => fails (.linkPrevious step)) s.previous →
      ∀ target, s.previous = .link target → target.name = place.name →
        s.present disk target = false)

section

variable {place : Place} {current : Str}

/-- What `apply` does to the selectors, when `current` selects another release than the new one. -/
theorem apply_cases (hc : s.current = .link place) (hother : place ≠ .staged available)
    (hchecks : ∃ old, applyChecks fails s available available = .ok old)
    (hlink : Linkable (fun step => fails (.linkCurrent step)) s.current) :
    (Linkable (fun step => fails (.linkPrevious step)) s.previous ∧
      apply fails disk s available available =
        ({ s with current := .link (.staged available), previous := .link place },
          finish fails
            { s with current := .link (.staged available), previous := .link place })) ∨
    (¬ Linkable (fun step => fails (.linkPrevious step)) s.previous ∧
      ∃ e, apply fails disk s available available =
        ({ s with current := .link (.staged available) }, .error e)) := by
  obtain ⟨old, hold⟩ := hchecks
  have hresolved : old = some place := by
    rw [applyChecks_ok hold, hc]
    rfl
  subst hresolved
  have hl : linkWith (fun step => fails (.linkCurrent step)) s.current (.staged available) =
    .ok (.link (.staged available)) := linkWith_ok.mpr ⟨hlink, rfl⟩
  have hnext : ∀ r : Root, nextPrevious fails disk r (some place) available =
      linkWith (fun step => fails (.linkPrevious step)) r.previous place := by
    intro r
    unfold nextPrevious
    rw [Option.filter_some, if_pos (by simpa using hother)]
  by_cases hp : Linkable (fun step => fails (.linkPrevious step)) s.previous
  · refine .inl ⟨hp, ?_⟩
    unfold apply
    rw [hold, hl]
    dsimp only
    rw [hnext, linkWith_ok.mpr ⟨hp, rfl⟩]
  · refine .inr ⟨hp, ?_⟩
    rcases hw : linkWith (fun step => fails (.linkPrevious step)) s.previous place with e | previous
    · refine ⟨e, ?_⟩
      unfold apply
      rw [hold, hl]
      dsimp only
      rw [hnext, hw]
    · exact absurd (linkWith_ok.mp hw).1 hp

/-- An `apply` that does not replace `current` changes nothing. -/
theorem apply_unchanged (h : ¬ ((∃ old, applyChecks fails s available available = .ok old) ∧
    Linkable (fun step => fails (.linkCurrent step)) s.current)) :
    ∃ e, apply fails disk s available available = (s, .error e) := by
  unfold apply
  rcases hchecks : applyChecks fails s available available with e | old
  · exact ⟨e, rfl⟩
  · rcases hl : linkWith (fun step => fails (.linkCurrent step)) s.current (.staged available)
      with e | selector
    · exact ⟨e, rfl⟩
    · exact absurd ⟨⟨old, hchecks⟩, (linkWith_ok.mp hl).1⟩ h

/-- The selectors after the staged release was activated, or its activation was recovered from. -/
theorem activate_restores {previous : Selector} {stageStatus : Str} (hc : s.current = .link place)
    (hname : place.name = current) (hpresent : s.present disk place = true)
    (hstaged : s.present disk (.staged available) = true) (hne : current ≠ available)
    (hchecks : ∃ old, applyChecks fails s available available = .ok old)
    (hlink : Linkable (fun step => fails (.linkCurrent step)) s.current) (hp : s.previous = previous) :
    Restores s (activateOrRecover fails disk s available current stageStatus) ↔
      (Linkable (fun step => fails (.linkPrevious step)) previous →
        Quiet fails ∨ previous = .link (.staged available)) ∧
      (¬ Linkable (fun step => fails (.linkPrevious step)) previous →
        ∀ target, previous = .link target → target.name = current →
          s.present disk target = false) := by
  subst hp
  have hother : place ≠ .staged available := by
    rintro rfl
    exact hne hname.symm
  rcases apply_cases hc hother hchecks hlink with ⟨hprevious, happly⟩ | ⟨hprevious, e, happly⟩
  · rw [forall_prop_of_true hprevious, and_iff_left fun hno => absurd hprevious hno]
    have hquiet := @finish_ok fails
      { s with current := .link (.staged available), previous := .link place } place rfl
    have hselected : currentName disk
        { s with current := .link (.staged available), previous := .link place } =
        .ok available := if_pos hstaged
    rcases hfinish : finish fails
        { s with current := .link (.staged available), previous := .link place } with e | reported
    · have hloud : ¬ Quiet fails := fun h => by
        obtain ⟨_, hok⟩ := hquiet.mpr h
        cases hfinish.symm.trans hok
      rw [or_iff_right hloud]
      have hrun : activateOrRecover fails disk s available current stageStatus =
          ({ s with current := .link place, previous := .link (.staged available) },
            .error restoredPrior) := by
        unfold activateOrRecover
        rw [happly, hfinish]
        dsimp only
        rcases @recover_replaced disk
            { s with current := .link (.staged available), previous := .link place } available
            current rfl hstaged hne with ⟨target, htarget, -, hrecover⟩ | ⟨hno, -⟩
        · cases htarget
          have hverify := (@verify_restored disk
            { s with current := .link place, previous := .link (.staged available) } place current
            rfl hname).mpr hpresent
          rw [hrecover]
          dsimp only
          rw [hverify]
        · exact absurd hname (hno place rfl)
      rw [hrun]
      constructor
      · intro h; exact (h rfl).2.symm
      · intro h _; exact ⟨hc.symm, h.symm⟩
    · refine iff_of_true ?_ (.inl (hquiet.mp ⟨reported, hfinish⟩))
      have hrun : ∃ upgraded, (activateOrRecover fails disk s available current stageStatus).2 =
          .ok upgraded := by
        unfold activateOrRecover
        rw [happly, hfinish]
        dsimp only
        rw [hselected]
        dsimp only
        rw [if_neg (not_not.mpr rfl)]
        exact ⟨_, rfl⟩
      obtain ⟨upgraded, hrun⟩ := hrun
      intro herror
      cases hrun.symm.trans herror
  · rw [forall_prop_of_true hprevious, and_iff_right fun hyes => absurd hyes hprevious]
    have hrun : activateOrRecover fails disk s available current stageStatus =
        ((recover disk { s with current := .link (.staged available) } available current).1,
          .error
            (recover disk { s with current := .link (.staged available) } available current).2) := by
      unfold activateOrRecover
      rw [happly]
    rw [hrun]
    rcases @recover_replaced disk { s with current := .link (.staged available) } available current
        rfl hstaged hne with ⟨target, htarget, hsame, hrecover⟩ | ⟨hno, hrecover⟩
    · have hverify := @verify_restored disk
        { s with current := .link target, previous := .link (.staged available) } target current
        rfl hsame
      have hpresent' : Root.present
          { s with current := .link target, previous := .link (.staged available) } disk target =
          s.present disk target := rfl
      have htarget' : s.previous = .link target := htarget
      rw [hrecover]
      constructor
      · intro h target' he _
        cases htarget'.symm.trans he
        by_contra hyes
        have hmessage := hverify.mpr (hpresent'.trans (by simpa using hyes))
        have hback := (h (congrArg Except.error hmessage)).2
        rw [htarget'] at hback
        cases hback
        exact hne hsame.symm
      · intro h hmessage
        have hgone := h target htarget' hsame
        have hthere := hverify.mp (Except.error.inj hmessage)
        rw [hpresent', hgone] at hthere
        cases hthere
    · rw [hrecover]
      refine iff_of_true (fun h => ?_) fun target he hsame => absurd hsame (hno target he)
      exact absurd (Except.error.inj h) (show ¬ alsoFailed = restoredPrior by decide)

end

/-- **When an upgrade that reports a restored release has restored both selectors.** -/
theorem restores_iff (fails : Step → Bool) (disk : Disk) (s : Root) (available : Str)
    (checkOnly : Bool) (verified : Except PyError Unit) :
    Restores s (upgradeEndpoint fails disk s available checkOnly verified) ↔
      Recoverable fails disk s available checkOnly verified := by
  unfold upgradeEndpoint
  rcases hchecks : upgradeChecks disk s available with e | ⟨current, newer⟩
  · refine iff_of_true (fun _ => ⟨rfl, rfl⟩) fun place h => ?_
    obtain ⟨_, hnewer⟩ := h.newer
    cases hchecks.symm.trans hnewer
  dsimp only
  rcases newer
  · rw [if_pos rfl]
    refine iff_of_true (fun _ => ⟨rfl, rfl⟩) fun place h => ?_
    obtain ⟨_, hnewer⟩ := h.newer
    cases hchecks.symm.trans hnewer
  rw [if_neg (by simp)]
  rcases checkOnly
  swap
  · rw [if_pos rfl]
    exact iff_of_true (fun _ => ⟨rfl, rfl⟩) fun place h => absurd h.applies (by simp)
  rw [if_neg (by simp)]
  have hkept := @stage_selectors s available verified
  rcases hstage : stage s verified available with ⟨s', e | status⟩
  · rw [hstage] at hkept
    refine iff_of_true (fun _ => hkept) fun place h => ?_
    obtain ⟨_, hok⟩ := h.stages
    rw [hstage] at hok
    cases hok
  dsimp only
  obtain ⟨place, hplace, hname, hpresent, hne⟩ := upgradeChecks_newer hchecks
  obtain ⟨hcurrent, hprevious, hstaged, hsame⟩ := @stage_ok disk s available _ _ _ hstage
  have hsame' : ∀ target : Place, target.name = current →
      s'.present disk target = s.present disk target := by
    intro target htarget
    refine hsame target fun he => hne ?_
    rw [← htarget, he]
    rfl
  have hback : Restores s (activateOrRecover fails disk s' available current status) ↔
      Restores s' (activateOrRecover fails disk s' available current status) := by
    unfold Restores
    rw [hcurrent, hprevious]
  rw [hback]
  by_cases hswitch : (∃ old, applyChecks fails s' available available = .ok old) ∧
      Linkable (fun step => fails (.linkCurrent step)) s'.current
  · rw [activate_restores (hcurrent.trans hplace) hname
      ((hsame' place hname).trans hpresent) hstaged hne hswitch.1 hswitch.2 hprevious]
    constructor
    · rintro ⟨h1, h2⟩ place' h
      cases hplace.symm.trans h.current
      refine ⟨h1, fun hno target he htarget => ?_⟩
      rw [hname] at htarget
      rw [← hsame' target htarget]
      exact h2 hno target he htarget
    · intro h
      have hswitches : Switches fails disk s available false verified place := by
        refine ⟨hplace, ⟨_, hchecks⟩, rfl, ⟨status, by rw [hstage]⟩, ?_, ?_⟩
        · rw [hstage]; exact hswitch.1
        · rw [← hcurrent]; exact hswitch.2
      obtain ⟨h1, h2⟩ := h place hswitches
      refine ⟨h1, fun hno target he htarget => ?_⟩
      rw [hsame' target htarget]
      exact h2 hno target he (htarget.trans hname.symm)
  · obtain ⟨e, happly⟩ := @apply_unchanged fails disk s' available hswitch
    refine iff_of_true (fun _ => ?_) fun place' h => ?_
    · have hrun : activateOrRecover fails disk s' available current status =
          ((recover disk s' available current).1,
            .error (recover disk s' available current).2) := by
        unfold activateOrRecover
        rw [happly]
      rw [hrun, recover_unchanged (hcurrent.trans hplace) hname
        ((hsame' place hname).trans hpresent) hne]
      exact ⟨rfl, rfl⟩
    · refine absurd ⟨?_, ?_⟩ hswitch
      · have hc := h.checks
        rw [hstage] at hc
        exact hc
      · rw [hcurrent]; exact h.links

/-! ### An upgrade whose shell hook is not installed -/

/-- A disk with nothing outside the root. -/
def emptyDisk : Disk where
  holds _ := false
  iterdir releases := releases
  iterdir_perm _ := List.Perm.refl _

/-- The running release is active, and the one before it is the rollback target. -/
def sampleRoot : Root where
  releases := [(lit "0.1.32", true), (lit "0.1.33", true)]
  current := .link (.staged (lit "0.1.33"))
  previous := .link (.staged (lit "0.1.32"))

/-- **After a failed upgrade a rollback leads to the release that failed.** -/
theorem failed_is_previous : ¬ Restores sampleRoot (upgradeEndpoint
    (Lib.Fault.only Step.installHook) emptyDisk sampleRoot (lit "0.1.34") false (.ok ())) := by
  intro h
  have hraises : (upgradeEndpoint (Lib.Fault.only Step.installHook) emptyDisk sampleRoot
      (lit "0.1.34") false (.ok ())).2 = .error restoredPrior := by decide +kernel
  exact absurd (h hraises).2 (by decide +kernel)

end Cloudx.Local.UpgradeRecovery
