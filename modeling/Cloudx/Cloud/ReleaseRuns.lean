import Cloudx.Cloud.ReleaseRoot
import Cloudx.Python.Dump

/-! # The selectors over whole runs

From an empty root, stagings, activations and rollbacks keep a `Sound` root: the two selectors are
either both unset or select complete staged releases, and they differ. The one way out is the first
activation, when nothing has checked the version yet: a path to a directory elsewhere that holds an
artifact is linked, and no later call accepts that link. -/

namespace Cloudx.Cloud.ReleaseRuns

open Cloudx.Python.Text Cloudx.Python.Value
open Cloudx.Cloud.ReleaseRoot

variable {py : Py} {host : Host} {s : Root}

/-! ### Versions -/

/-- The elements of joined lists. -/
theorem mem_intercalate {a c : ℕ} : ∀ {parts : List Str}, c ∈ [a].intercalate parts →
    c = a ∨ ∃ part ∈ parts, c ∈ part
  | [], h => absurd h (by simp)
  | [part], h => Or.inr ⟨part, by simp, by simpa using h⟩
  | part :: part' :: parts, h => by
    rw [List.intercalate_cons_cons, List.append_assoc, List.mem_append, List.mem_append,
      List.mem_singleton] at h
    rcases h with h | rfl | h
    · exact Or.inr ⟨part, by simp, h⟩
    · exact Or.inl rfl
    · rcases mem_intercalate h with h | ⟨q, hq, h⟩
      · exact Or.inl h
      · exact Or.inr ⟨q, List.mem_cons_of_mem _ hq, h⟩

/-- A part is no longer than the joined list. -/
theorem length_le_intercalate {a : ℕ} {part : Str} : ∀ {parts : List Str}, part ∈ parts →
    part.length ≤ ([a].intercalate parts).length
  | [q], h => by
    rw [List.mem_singleton.mp h, List.intercalate_singleton]
  | q :: q' :: parts, h => by
    rw [List.intercalate_cons_cons, List.length_append, List.length_append]
    rcases List.mem_cons.mp h with rfl | h
    · omega
    · have := length_le_intercalate (a := a) h
      omega

theorem isVersion_parts {v part : Str} (h : isVersion v = true) (hpart : part ∈ v.splitOn 46) :
    part ≠ [] ∧ ∀ c ∈ part, isDigit c = true := by
  have hparts := (Bool.and_eq_true_iff.mp h).2
  have := Bool.and_eq_true_iff.mp (List.all_eq_true.mp hparts part hpart)
  exact ⟨of_decide_eq_true this.1, List.all_eq_true.mp this.2⟩

theorem join_version (v : Str) : [46].intercalate (v.splitOn 46) = v := List.intercalate_splitOn 46

/-- The characters of a version. -/
theorem isVersion_chars {v : Str} (h : isVersion v = true) {c : ℕ} (hc : c ∈ v) :
    c = 46 ∨ isDigit c = true := by
  rw [← join_version v] at hc
  rcases mem_intercalate hc with hc | ⟨part, hpart, hc⟩
  · exact Or.inl hc
  · exact Or.inr ((isVersion_parts h hpart).2 c hc)

theorem isVersion_name {v : Str} (h : isVersion v = true) : ValidName v := by
  refine ⟨?_, fun hc => ?_, fun hc => ?_, ?_, ?_⟩
  · rintro rfl
    exact absurd h (by decide)
  · rcases isVersion_chars h hc with h | h <;> exact absurd h (by decide)
  · rcases isVersion_chars h hc with h | h <;> exact absurd h (by decide)
  · rintro rfl
    exact absurd h (by decide)
  · rintro rfl
    exact absurd h (by decide)

theorem versionMatches_name {v : Str} (h : versionMatches v = true) : ValidName v := by
  rcases Bool.or_eq_true_iff.mp h with h | h
  · exact isVersion_name h
  · obtain ⟨hlast, hv⟩ := Bool.and_eq_true_iff.mp h
    have hlast : v.getLast? = some 10 := of_decide_eq_true hlast
    have hsplit : v = v.dropLast ++ [10] := (List.dropLast_append_getLast? 10 hlast).symm
    obtain ⟨hne, hslash, hnul, -, -⟩ := isVersion_name hv
    have hmem : (10 : ℕ) ∈ v := List.mem_of_getLast? hlast
    refine ⟨List.ne_nil_of_mem hmem, ?_, ?_, ?_, ?_⟩
    · rw [hsplit]
      simp [hslash]
    · rw [hsplit]
      simp [hnul]
    · rintro rfl
      exact absurd hlast (by decide)
    · rintro rfl
      exact absurd hlast (by decide)

theorem mapM_ok {α β : Type} {f : α → Except PyError β} :
    ∀ {xs : List α}, (∀ x ∈ xs, ∃ y, f x = .ok y) → ∃ ys, xs.mapM f = .ok ys
  | [], _ => ⟨[], rfl⟩
  | x :: xs, h => by
    obtain ⟨y, hy⟩ := h x (by simp)
    obtain ⟨ys, hys⟩ := mapM_ok fun z (hz : z ∈ xs) => h z (List.mem_cons_of_mem _ hz)
    exact ⟨y :: ys, by rw [List.mapM_cons, hy, hys]; rfl⟩

/-- A version that is a file name has a tuple. -/
theorem versionTuple_short {v : Str} (h : isVersion v = true) (hlen : v.length ≤ nameMax) :
    ∃ t, versionTuple v = .ok t := by
  rw [versionTuple, if_pos (by rw [versionMatches, h]; rfl)]
  refine mapM_ok fun part hpart => ?_
  have hpartlen : part.length ≤ v.length := by
    have := length_le_intercalate (a := 46) hpart
    rwa [join_version] at this
  have hdigits := part.length_filter_le isDigit
  have hmax : nameMax ≤ maxStrDigits := by decide
  rw [intOf, if_neg (by omega)]
  exact ⟨_, rfl⟩

/-! ### A sound root -/

/-- The manifests that pass the signature check carry versions of the form `N.N.N`. -/
def SignsVersions (py : Py) (host : Host) : Prop :=
  ∀ bytes signature manifest version, host.verifies bytes signature = true →
    py.loads bytes = .value (.obj manifest) → get manifest (lit "version") = .str version →
    isVersion version = true

/-- A complete release under its version. -/
structure Staging (version : Str) (release : Release) : Prop where
  isVersion : isVersion version = true
  short : version.length ≤ nameMax
  artifact : release.artifact.isSome = true
  manifest : release.manifest.isSome = true
  signature : release.signature.isSome = true
  signers : release.signers.isSome = true

/-- The selector selects this staged release. -/
def Selects (s : Root) (selector : Selector) (version : Str) : Prop :=
  selector = .link (.staged version) ∧ ∃ release, s.releases.lookup version = some release

/-- The staged releases are complete; `current` selects one of them, and `previous` another one or
none; or neither is set. -/
structure Sound (s : Root) : Prop where
  staging : ∀ version release, s.releases.lookup version = some release → Staging version release
  selectors : (s.current = .absent ∧ s.previous = .absent) ∨
    ∃ c, Selects s s.current c ∧ (s.previous = .absent ∨ ∃ p, Selects s s.previous p ∧ p ≠ c)

theorem sound_empty : Sound emptyRoot :=
  ⟨fun _ _ h => absurd h (by simp [emptyRoot]), Or.inl ⟨rfl, rfl⟩⟩

/-- The version of a selected release. -/
theorem linkVersion_selects (hs : Sound s) {selector : Selector} {version : Str}
    (h : Selects s selector version) : releaseLinkVersion s selector = .ok (some version) := by
  obtain ⟨rfl, release, hr⟩ := h
  have hst := hs.staging version release hr
  obtain ⟨t, ht⟩ := versionTuple_short hst.isVersion hst.short
  rw [releaseLinkVersion, ht, hr]
  show (if (release.artifact).isSome = true then _ else _) = _
  rw [if_pos hst.artifact]
  rfl

/-- `status` returns on a sound root. -/
theorem status_sound (py : Py) (hs : Sound s) : ∃ observed, status py s = .ok observed := by
  rcases hs.selectors with ⟨hc, hp⟩ | ⟨c, hc, hp | ⟨p, hp, -⟩⟩
  · rw [status, hc, hp]
    exact ⟨_, rfl⟩
  · rw [status, linkVersion_selects hs hc, hp]
    exact ⟨_, rfl⟩
  · rw [status, linkVersion_selects hs hc, linkVersion_selects hs hp]
    exact ⟨_, rfl⟩

/-- The fallback is a staged release below the version. -/
theorem latestStep_ok {version : Str} {best best' : Option (List ℕ × Str)} {entry : Str × Release}
    (h : latestStep version best entry = .ok best') :
    best' = best ∨ ∃ parsed limit, best' = some (parsed, entry.1) ∧
      versionTuple entry.1 = .ok parsed ∧ versionTuple version = .ok limit ∧ parsed < limit := by
  unfold latestStep at h
  split at h
  · exact Or.inl (Except.ok.inj h).symm
  · split at h
    · exact Or.inl (Except.ok.inj h).symm
    · exact absurd h (by simp)
    · next parsed hparsed =>
      rcases hlimit : versionTuple version with e | limit
      · rw [hlimit] at h
        exact absurd h (by simp [bind, Except.bind])
      · rw [hlimit] at h
        change (if parsed < limit then _ else _) = _ at h
        by_cases hlt : parsed < limit
        · rw [if_pos hlt] at h
          rcases best with _ | ⟨highest, name⟩
          · exact Or.inr ⟨parsed, limit, (Except.ok.inj h).symm, hparsed, rfl, hlt⟩
          · by_cases hhigh : highest < parsed
            · simp only [hhigh, if_true] at h
              exact Or.inr ⟨parsed, limit, (Except.ok.inj h).symm, hparsed, rfl, hlt⟩
            · simp only [hhigh, if_false] at h
              exact Or.inl (Except.ok.inj h).symm
        · rw [if_neg hlt] at h
          exact Or.inl (Except.ok.inj h).symm

theorem latest_ok {version : Str} : ∀ {entries : List (Str × Release)}
    {best best' : Option (List ℕ × Str)}, entries.foldlM (latestStep version) best = .ok best' →
    best' = best ∨ ∃ entry ∈ entries, ∃ parsed limit, best' = some (parsed, entry.1) ∧
      versionTuple entry.1 = .ok parsed ∧ versionTuple version = .ok limit ∧ parsed < limit
  | [], _, _, h => Or.inl (Except.ok.inj h).symm
  | entry :: entries, best, best', h => by
    rw [List.foldlM_cons] at h
    rcases hstep : latestStep version best entry with e | best₁
    · rw [hstep] at h
      exact absurd h (by simp [bind, Except.bind])
    · rw [hstep] at h
      rcases latest_ok (show entries.foldlM (latestStep version) best₁ = .ok best' from h) with
        rfl | ⟨found, hmem, hfound⟩
      · rcases latestStep_ok hstep with rfl | hfound
        · exact Or.inl rfl
        · exact Or.inr ⟨entry, by simp, hfound⟩
      · exact Or.inr ⟨found, List.mem_cons_of_mem _ hmem, hfound⟩

/-- **The fallback** is staged, and its version is below that of the activated release. -/
theorem latestStagedBefore_ok {version fallback : Str}
    (h : latestStagedBefore host s version = .ok (some fallback)) :
    fallback ∈ s.names ∧ versionMatches version = true ∧ fallback ≠ version := by
  unfold latestStagedBefore at h
  rcases hfold : (host.iterdir s.releases).foldlM (latestStep version) none with e | best
  · rw [hfold] at h
    exact absurd h (by simp [bind, Except.bind])
  · rw [hfold] at h
    have hbest : best.map Prod.snd = some fallback := Except.ok.inj h
    rcases latest_ok hfold with rfl | ⟨entry, hmem, parsed, limit, rfl, hparsed, hlimit, hlt⟩
    · exact absurd hbest (by simp)
    · obtain rfl : entry.1 = fallback := Option.some.inj hbest
      refine ⟨List.mem_map_of_mem ((host.iterdir_perm s.releases).mem_iff.mp hmem), ?_, ?_⟩
      · by_contra hno
        rw [versionTuple, if_neg hno] at hlimit
        exact absurd hlimit (by simp)
      · intro heq
        rw [heq, hlimit] at hparsed
        rw [Except.ok.inj hparsed] at hlt
        exact absurd hlt (List.lt_irrefl _)

theorem mem_names {version : Str} :
    version ∈ s.names ↔ ∃ release, s.releases.lookup version = some release := by
  rw [Root.names, ← Option.isSome_iff_exists]
  constructor
  · intro h
    obtain ⟨entry, hentry, rfl⟩ := List.mem_map.mp h
    by_contra hnone
    simp only [Bool.not_eq_true, Option.isSome_eq_false_iff, Option.isNone_iff_eq_none,
      List.lookup_eq_none_iff] at hnone
    exact absurd (hnone entry hentry) (by simp)
  · intro h
    obtain ⟨release, hr⟩ := Option.isSome_iff_exists.mp h
    obtain ⟨l₁, l₂, hsplit, -⟩ := List.lookup_eq_some_iff.mp hr
    exact List.mem_map.mpr ⟨(version, release), by simp [hsplit], rfl⟩

/-! ### Activation -/

/-- The version `v` is below `c`. -/
def Below (v c : Str) : Prop :=
  ∃ t u, versionTuple v = .ok t ∧ versionTuple c = .ok u ∧ t < u

theorem refuseDowngrade_ok {version present : Str} {message : String}
    (h : refuseDowngrade version present message = .ok ()) :
    versionMatches version = true ∧ ¬ Below version present := by
  unfold refuseDowngrade at h
  split at h
  · exact absurd h (by simp)
  · exact absurd h (by simp)
  · next wanted limit hwanted hlimit =>
    split_ifs at h with hlt
    constructor
    · by_contra hno
      rw [versionTuple, if_neg hno] at hwanted
      exact absurd hwanted (by simp)
    · rintro ⟨t, u, ht, hu, htu⟩
      rw [hwanted] at ht
      rw [hlimit] at hu
      rw [← Except.ok.inj ht, ← Except.ok.inj hu] at htu
      exact hlt htu

/-- What the checks of `activate` ensure. -/
theorem activateChecks_ok {version confirmation : Str} {currentVersion : Option Str}
    (h : activateChecks host s version confirmation = .ok currentVersion) :
    confirmation = version ∧ s.complete host (host.place s.names version) = true ∧
      releaseLinkVersion s s.current = .ok currentVersion ∧
      ∀ c, currentVersion = some c → versionMatches version = true ∧ ¬ Below version c := by
  unfold activateChecks at h
  by_cases hconf : confirmation = version
  · rw [if_neg (not_not_intro hconf)] at h
    rcases hcur : releaseLinkVersion s s.current with e | current
    · rw [hcur] at h
      exact absurd h (by simp)
    · rw [hcur] at h
      simp only at h
      rcases hchecked : refuseOlder version current with e | u
      · rw [hchecked] at h
        exact absurd h (by simp)
      · rw [hchecked] at h
        simp only at h
        by_cases hcomplete : s.complete host (host.place s.names version) = true
        · rw [if_pos hcomplete] at h
          obtain rfl := Except.ok.inj h
          refine ⟨hconf, hcomplete, rfl, ?_⟩
          rintro c rfl
          exact refuseDowngrade_ok hchecked
        · rw [if_neg hcomplete] at h
          exact absurd h (by simp)
  · rw [if_pos hconf] at h
    exact absurd h (by simp)

/-- A sound root: the version that the link `current` gives. -/
theorem currentVersion_sound (hs : Sound s) {currentVersion : Option Str}
    (h : releaseLinkVersion s s.current = .ok currentVersion) :
    (s.current = .absent ∧ s.previous = .absent ∧ currentVersion = none) ∨
      ∃ c, Selects s s.current c ∧ currentVersion = some c ∧
        (s.previous = .absent ∨ ∃ p, Selects s s.previous p ∧ p ≠ c) := by
  rcases hs.selectors with ⟨hc, hp⟩ | ⟨c, hc, hp⟩
  · rw [hc] at h
    exact Or.inl ⟨hc, hp, (Except.ok.inj h).symm⟩
  · rw [linkVersion_selects hs hc] at h
    exact Or.inr ⟨c, hc, (Except.ok.inj h).symm, hp⟩

/-- The selector `previous` after an activation that has no other version to keep. -/
theorem previousAfter_fallback {version : Str} {currentVersion : Option Str}
    (hcur : currentVersion.filter (· ≠ version) = none) (hp : s.previous = .absent)
    {previous : Selector} (h : previousAfter host s currentVersion version = .ok previous) :
    previous = .absent ∨ ∃ p ∈ s.names, previous = .link (.staged p) ∧
      versionMatches version = true ∧ p ≠ version := by
  unfold previousAfter at h
  rw [hcur, hp] at h
  simp only at h
  rcases hlatest : latestStagedBefore host s version with e | fallback
  · rw [hlatest] at h
    exact absurd h (by simp [bind, Except.bind])
  · rw [hlatest] at h
    rcases fallback with _ | p
    · exact Or.inl (Except.ok.inj h).symm
    · obtain ⟨hmem, hmatch, hne⟩ := latestStagedBefore_ok hlatest
      exact Or.inr ⟨p, hmem, (Except.ok.inj h).symm, hmatch, hne⟩

/-- The first activation: what it leaves when its checks pass. -/
theorem activate_first (py : Py) {version confirmation : Str} (hc : s.current = .absent)
    (hp : s.previous = .absent)
    (h : activateChecks host s version confirmation = .ok none) :
    ∃ previous, (activate py host s version confirmation).1 =
        ⟨s.releases, .link (host.place s.names version), previous⟩ ∧
      (previous = .absent ∨ ∃ p ∈ s.names, previous = .link (.staged p) ∧
        versionMatches version = true ∧ p ≠ version) := by
  have hlink : atomicLink s.current (host.place s.names version) =
      .ok (.link (host.place s.names version)) := by
    rw [hc]
    rfl
  unfold activate
  rw [h, hlink]
  simp only
  rcases hprev : previousAfter host { s with current := .link (host.place s.names version) } none
    version with e | previous
  · exact ⟨.absent, by rw [hp], Or.inl rfl⟩
  · exact ⟨previous, rfl, previousAfter_fallback
      (s := { s with current := .link (host.place s.names version) }) rfl hp hprev⟩

/-- An activation of the current version again. -/
theorem activate_again (py : Py) {version confirmation : Str}
    (hc : s.current = .link (.staged version))
    (hp : s.previous = .absent ∨ ∃ place, s.previous = .link place)
    (hname : host.place s.names version = .staged version)
    (h : activateChecks host s version confirmation = .ok (some version)) :
    ∃ previous, (activate py host s version confirmation).1 =
        ⟨s.releases, .link (.staged version), previous⟩ ∧
      (previous = s.previous ∨ s.previous = .absent ∧
        ∃ p ∈ s.names, previous = .link (.staged p) ∧ p ≠ version) := by
  have hlink : atomicLink s.current (host.place s.names version) =
      .ok (.link (.staged version)) := by
    rw [hc, hname]
    rfl
  have hfilter : (some version).filter (· ≠ version) = none := by simp
  unfold activate
  rw [h, hlink]
  simp only
  rcases hprev : previousAfter host { s with current := .link (.staged version) } (some version)
    version with e | previous
  · exact ⟨s.previous, rfl, Or.inl rfl⟩
  · refine ⟨previous, rfl, ?_⟩
    rcases hp with hp | ⟨place, hp⟩
    · rcases previousAfter_fallback (s := { s with current := .link (.staged version) }) hfilter hp
        hprev with hnone | ⟨p, hmem, hlinkp, -, hne⟩
      · exact Or.inl (hnone.trans hp.symm)
      · exact Or.inr ⟨hp, p, hmem, hlinkp, hne⟩
    · rw [previousAfter, hfilter, hp] at hprev
      exact Or.inl ((Except.ok.inj hprev).symm.trans hp.symm)

/-- An activation of another version. -/
theorem activate_other {version confirmation c : Str}
    (hc : Selects s s.current c) (hne : c ≠ version)
    (hprevious : s.previous ≠ .directory)
    (hname : host.place s.names version = .staged version)
    (h : activateChecks host s version confirmation = .ok (some c)) :
    activate py host s version confirmation =
      (⟨s.releases, .link (.staged version), .link (.staged c)⟩,
        switched py ⟨s.releases, .link (.staged version), .link (.staged c)⟩ version) := by
  have hlink : atomicLink s.current (host.place s.names version) =
      .ok (.link (.staged version)) := by
    rw [hc.1, hname]
    rfl
  have hprev : previousAfter host { s with current := .link (.staged version) } (some c) version =
      .ok (.link (.staged c)) := by
    rw [previousAfter, Option.filter_some, if_pos (by simpa using hne)]
    exact if_neg hprevious
  unfold activate
  rw [h, hlink]
  simp only
  rw [hprev]

/-- The path that is given to `activate` does not lead to an artifact elsewhere, when no release is
current and so nothing has checked the version. -/
def Contained (host : Host) (s : Root) (version confirmation : Str) : Prop :=
  s.current = .absent → confirmation = version → ∀ path,
    host.place s.names version = .elsewhere path → host.holdsArtifact path = false

/-- A place that holds an artifact is a staged release, or elsewhere. -/
theorem complete_staged {name : Str} (h : s.complete host (.staged name) = true) :
    ∃ release, s.releases.lookup name = some release := by
  rcases hr : s.releases.lookup name with _ | release
  · rw [Root.complete, hr] at h
    exact absurd h (by simp)
  · exact ⟨release, rfl⟩

/-- A sound root with other selectors. -/
theorem sound_link (hs : Sound s) {c : Str} {previous : Selector} (hc : c ∈ s.names)
    (hp : previous = .absent ∨ ∃ p ∈ s.names, previous = .link (.staged p) ∧ p ≠ c) :
    Sound ⟨s.releases, .link (.staged c), previous⟩ := by
  refine ⟨hs.staging, Or.inr ⟨c, ⟨rfl, mem_names.mp hc⟩, ?_⟩⟩
  rcases hp with hp | ⟨p, hmem, hlink, hne⟩
  · exact Or.inl hp
  · exact Or.inr ⟨p, ⟨hlink, mem_names.mp hmem⟩, hne⟩

/-- **A contained activation keeps the root sound.** -/
theorem activate_sound (py : Py) (hs : Sound s) {version confirmation : Str}
    (hin : Contained host s version confirmation) :
    Sound (activate py host s version confirmation).1 ∧
      (activate py host s version confirmation).1.releases = s.releases := by
  rcases hchecks : activateChecks host s version confirmation with e | currentVersion
  · rw [activate, hchecks]
    exact ⟨hs, rfl⟩
  · obtain ⟨hconf, hcomplete, hcur, hmatch⟩ := activateChecks_ok hchecks
    rcases currentVersion_sound hs hcur with ⟨hc, hp, rfl⟩ | ⟨c, hc, rfl, hprevious⟩
    · -- the first activation: the place is a staged release
      obtain ⟨previous, hout, hprev⟩ := activate_first py hc hp hchecks
      rcases hplace : host.place s.names version with name | path
      · rw [hplace] at hcomplete hout
        rw [hout]
        refine ⟨sound_link hs (mem_names.mpr (complete_staged hcomplete)) ?_, rfl⟩
        rcases hprev with hnone | ⟨p, hmem, hlink, hversion, hne⟩
        · exact Or.inl hnone
        · rw [host.place_name _ _ (versionMatches_name hversion)] at hplace
          obtain rfl := Place.staged.inj hplace
          exact Or.inr ⟨p, hmem, hlink, hne⟩
      · rw [hplace, Root.complete, hin hc hconf path hplace] at hcomplete
        exact absurd hcomplete (by simp)
    · have hname := host.place_name s.names version (versionMatches_name (hmatch c rfl).1)
      rw [hname] at hcomplete
      have hv := mem_names.mpr (complete_staged hcomplete)
      have hselectable : s.previous = .absent ∨ ∃ place, s.previous = .link place := by
        rcases hprevious with hp | ⟨p, hp, -⟩
        · exact Or.inl hp
        · exact Or.inr ⟨_, hp.1⟩
      by_cases hne : c = version
      · obtain rfl := hne
        obtain ⟨previous, hout, hprev⟩ :=
          activate_again py hc.1 hselectable hname hchecks
        rw [hout]
        refine ⟨sound_link hs hv ?_, rfl⟩
        rcases hprev with rfl | ⟨-, hprev⟩
        · rcases hprevious with hp | ⟨p, hp, hne⟩
          · exact Or.inl hp
          · exact Or.inr ⟨p, mem_names.mpr hp.2, hp.1, hne⟩
        · exact Or.inr hprev
      · have hdir : s.previous ≠ .directory := by
          rcases hselectable with hp | ⟨place, hp⟩ <;> simp [hp]
        rw [activate_other hc hne hdir hname hchecks]
        exact ⟨sound_link hs hv (Or.inr ⟨c, mem_names.mpr hc.2, rfl, hne⟩), rfl⟩

/-- **A successful activation of another version** selects it, keeps the version before it as the
previous one, and is no downgrade. -/
theorem activate_success (hs : Sound s) {version confirmation c : Str} {report : Switched}
    (hc : Selects s s.current c) (hne : version ≠ c)
    (h : (activate py host s version confirmation).2 = .ok report) :
    (activate py host s version confirmation).1 =
        ⟨s.releases, .link (.staged version), .link (.staged c)⟩ ∧
      ¬ Below version c := by
  rcases hchecks : activateChecks host s version confirmation with e | currentVersion
  · rw [activate, hchecks] at h
    exact absurd h (by simp)
  · obtain ⟨-, -, hcur, hmatch⟩ := activateChecks_ok hchecks
    rw [linkVersion_selects hs hc] at hcur
    obtain rfl := Except.ok.inj hcur
    have hname := host.place_name s.names version (versionMatches_name (hmatch c rfl).1)
    have hdir : s.previous ≠ .directory := by
      rcases hs.selectors with ⟨-, hp⟩ | ⟨_, -, hp | ⟨p, hp, -⟩⟩
      · simp [hp]
      · simp [hp]
      · simp [hp.1]
    rw [activate_other hc (Ne.symm hne) hdir hname hchecks]
    exact ⟨rfl, (hmatch c rfl).2⟩

/-! ### Rollback -/

/-- **A rollback exchanges the two selectors.** -/
theorem rollback_exchanges (py : Py) (hs : Sound s) {c p : Str}
    (hc : Selects s s.current c) (hp : Selects s s.previous p) (hne : p ≠ c) :
    (rollback py s p).1 = ⟨s.releases, .link (.staged p), .link (.staged c)⟩ ∧
      ∃ report, (rollback py s p).2 = .ok report := by
  have hchecks : rollbackChecks s p = .ok (p, some c) := by
    rw [rollbackChecks, linkVersion_selects hs hp]
    simp only
    rw [if_neg (by simp), linkVersion_selects hs hc]
  have hlink : atomicLink s.current (.staged p) = .ok (.link (.staged p)) := by
    rw [hc.1]
    rfl
  have hfilter : (some c).filter (· ≠ p) = some c := by simp [Ne.symm hne]
  have hprev : atomicLink s.previous (.staged c) = .ok (.link (.staged c)) := by
    rw [hp.1]
    rfl
  have hout : rollback py s p = (⟨s.releases, .link (.staged p), .link (.staged c)⟩,
      switched py ⟨s.releases, .link (.staged p), .link (.staged c)⟩ p) := by
    rw [rollback, hchecks]
    simp only
    rw [hlink]
    simp only
    rw [hfilter]
    simp only
    rw [hprev]
  rw [hout]
  refine ⟨rfl, ?_⟩
  have hsound := sound_link hs (mem_names.mpr hp.2)
    (Or.inr ⟨c, mem_names.mpr hc.2, rfl, Ne.symm hne⟩)
  obtain ⟨observed, hobserved⟩ := status_sound py hsound
  exact ⟨⟨p, observed.previousVersion⟩, by rw [switched, hobserved]; rfl⟩

/-- A rollback keeps the root sound. -/
theorem rollback_sound (py : Py) (hs : Sound s) (confirmation : Str) :
    Sound (rollback py s confirmation).1 ∧
      (rollback py s confirmation).1.releases = s.releases := by
  have hno : (∀ p, ¬ Selects s s.previous p) ∨ ∃ c p, Selects s s.current c ∧
      Selects s s.previous p ∧ p ≠ c := by
    rcases hs.selectors with ⟨-, hp⟩ | ⟨c, hc, hp | ⟨p, hp, hne⟩⟩
    · exact Or.inl fun p h => absurd (hp.symm.trans h.1) (by simp)
    · exact Or.inl fun p h => absurd (hp.symm.trans h.1) (by simp)
    · exact Or.inr ⟨c, p, hc, hp, hne⟩
  rcases hno with hno | ⟨c, p, hc, hp, hne⟩
  · have hprev : s.previous = .absent := by
      rcases hs.selectors with ⟨-, hp⟩ | ⟨c, hc, hp | ⟨p, hp, -⟩⟩
      · exact hp
      · exact hp
      · exact absurd hp (hno p)
    rw [rollback, rollbackChecks, hprev]
    exact ⟨hs, rfl⟩
  · by_cases hconf : confirmation = p
    · rw [hconf, (rollback_exchanges py hs hc hp hne).1]
      exact ⟨sound_link hs (mem_names.mpr hp.2)
        (Or.inr ⟨c, mem_names.mpr hc.2, rfl, Ne.symm hne⟩), rfl⟩
    · rw [rollback, rollbackChecks, linkVersion_selects hs hp]
      simp only
      rw [if_pos hconf]
      exact ⟨hs, rfl⟩

/-! ### Staging -/

theorem manifestVersion_ok {manifest : Dict} {version : Str}
    (h : manifestVersion host manifest = .ok version) :
    get manifest (lit "version") = .str version := by
  unfold manifestVersion at h
  split at h
  · exact absurd h (by simp)
  · split at h
    · exact absurd h (by simp)
    · split at h
      · next v hv =>
        split at h
        · exact absurd h (by simp)
        · split at h
          · exact absurd h (by simp)
          · rw [hv, Except.ok.inj h]
      · exact absurd h (by simp)

/-- A verified bundle is for a version of the form `N.N.N`. -/
theorem releaseFiles_version (hsigned : SignsVersions py host) {manifests : List ManifestFile}
    {files : Verified} (h : releaseFiles py host manifests = .ok files) :
    isVersion files.version = true := by
  unfold releaseFiles at h
  split at h
  · next file =>
    split at h
    · exact absurd h (by simp)
    · next signature _ =>
      by_cases hverifies : host.verifies file.bytes signature = true
      · rw [if_neg (by simp [hverifies])] at h
        split at h
        · exact absurd h (by simp)
        · exact absurd h (by simp)
        · next manifest hloads =>
          rcases hversion : manifestVersion host manifest with e | version
          · rw [hversion] at h
            exact absurd h (by simp [bind, Except.bind])
          · rcases hartifact : cloudArtifact py file manifest with e | artifact
            · rw [hversion, hartifact] at h
              exact absurd h (by simp [bind, Except.bind])
            · rw [hversion, hartifact] at h
              rw [← Except.ok.inj h]
              exact hsigned file.bytes signature manifest version hverifies hloads
                (manifestVersion_ok hversion)
        · exact absurd h (by simp)
      · rw [if_pos (by simpa using hverifies)] at h
        exact absurd h (by simp)
  · exact absurd h (by simp)

/-- **What staging does to the root**: nothing, or one more complete release, at a version that was
free. -/
theorem stageVerified_cases (hsigned : SignsVersions py host) (s : Root) (pinned : Option Pinned)
    (manifests : List ManifestFile) :
    (stageVerifiedRelease py host s pinned manifests).1 = s ∨
      ∃ version release, s.releases.lookup version = none ∧ Staging version release ∧
        (stageVerifiedRelease py host s pinned manifests).1 =
          { s with releases := (version, release) :: s.releases } := by
  unfold stageVerifiedRelease
  rcases hfiles : releaseFiles py host manifests with e | files
  · exact Or.inl rfl
  · have hversion := releaseFiles_version hsigned hfiles
    simp only
    split
    · exact Or.inl rfl
    · split
      · split <;> exact Or.inl rfl
      · next hfree =>
        split
        · exact Or.inl rfl
        · next hlen =>
          split
          · exact Or.inl rfl
          · refine Or.inr ⟨files.version, _, hfree, ⟨hversion, ?_, rfl, rfl, rfl, rfl⟩, rfl⟩
            rw [List.length_append, List.length_append] at hlen
            omega

/-- Staging keeps the root sound and every release that was staged. -/
theorem sound_staged (hs : Sound s) {version : Str} {release : Release}
    (hfree : s.releases.lookup version = none) (hst : Staging version release) :
    Sound { s with releases := (version, release) :: s.releases } ∧
      ∀ name r, s.releases.lookup name = some r →
        ((version, release) :: s.releases).lookup name = some r := by
  have hlookup : ∀ name r, s.releases.lookup name = some r →
      ((version, release) :: s.releases).lookup name = some r := by
    intro name r hr
    have hne : name ≠ version := by
      rintro rfl
      rw [hfree] at hr
      exact absurd hr (by simp)
    rw [List.lookup_cons, beq_false_of_ne hne]
    exact hr
  have hselects : ∀ selector name, Selects s selector name →
      Selects { s with releases := (version, release) :: s.releases } selector name :=
    fun selector name h => ⟨h.1, h.2.choose, hlookup _ _ h.2.choose_spec⟩
  refine ⟨⟨fun name r hr => ?_, ?_⟩, hlookup⟩
  · rw [List.lookup_cons] at hr
    by_cases hname : name = version
    · rw [hname, beq_self_eq_true] at hr
      rw [hname, ← Option.some.inj hr]
      exact hst
    · rw [beq_false_of_ne hname] at hr
      exact hs.staging name r hr
  · rcases hs.selectors with h | ⟨c, hc, hp⟩
    · exact Or.inl h
    · refine Or.inr ⟨c, hselects _ _ hc, ?_⟩
      rcases hp with hp | ⟨p, hp, hne⟩
      · exact Or.inl hp
      · exact Or.inr ⟨p, hselects _ _ hp, hne⟩

/-! ### Runs -/

/-- A call. -/
inductive Call where
  | stage (bundle : Bundle)
  | stagePinnedCompatibility (bundle : Bundle) (pinned : Pinned)
  | activate (version confirmation : Str)
  | rollback (confirmation : Str)

/-- The release root after a call, whether it succeeded or failed. -/
def perform (py : Py) (host : Host) (s : Root) : Call → Root
  | .stage bundle => (stage py host s bundle).1
  | .stagePinnedCompatibility bundle pinned => (stagePinnedCompatibility py host s bundle pinned).1
  | .activate version confirmation => (activate py host s version confirmation).1
  | .rollback confirmation => (rollback py s confirmation).1

/-- The call is contained if it is an activation. -/
def Call.Contained (host : Host) (s : Root) : Call → Prop
  | .activate version confirmation => ReleaseRuns.Contained host s version confirmation
  | _ => True

/-- The roots of a run whose calls are all contained. -/
inductive Run (py : Py) (host : Host) : Root → Root → Prop
  | refl (s : Root) : Run py host s s
  | step {s t : Root} (call : Call) : Run py host s t → call.Contained host t →
      Run py host s (perform py host t call)

/-- **One call** keeps the root sound and every release that was staged. -/
theorem perform_sound (hsigned : SignsVersions py host) (hs : Sound s) {call : Call}
    (hin : call.Contained host s) :
    Sound (perform py host s call) ∧ ∀ name r, s.releases.lookup name = some r →
      (perform py host s call).releases.lookup name = some r := by
  have hstage : ∀ pinned manifests,
      Sound (stageVerifiedRelease py host s pinned manifests).1 ∧
        ∀ name r, s.releases.lookup name = some r →
          (stageVerifiedRelease py host s pinned manifests).1.releases.lookup name = some r := by
    intro pinned manifests
    rcases stageVerified_cases hsigned s pinned manifests with
      hout | ⟨version, release, hfree, hst, hout⟩
    · rw [hout]
      exact ⟨hs, fun _ _ h => h⟩
    · rw [hout]
      exact sound_staged hs hfree hst
  rcases call with bundle | ⟨bundle, pinned⟩ | ⟨version, confirmation⟩ | confirmation
  · rcases bundle with e | manifests
    · exact ⟨hs, fun _ _ h => h⟩
    · exact hstage none manifests
  · show Sound (stagePinnedCompatibility py host s bundle pinned).1 ∧ ∀ name r,
      s.releases.lookup name = some r →
        (stagePinnedCompatibility py host s bundle pinned).1.releases.lookup name = some r
    unfold stagePinnedCompatibility
    split
    · exact ⟨hs, fun _ _ h => h⟩
    · split
      · exact ⟨hs, fun _ _ h => h⟩
      · split
        · exact ⟨hs, fun _ _ h => h⟩
        · split
          · exact ⟨hs, fun _ _ h => h⟩
          · exact hstage (some pinned) _
  · obtain ⟨hsound, hsame⟩ := activate_sound py hs hin
    exact ⟨hsound, fun _ _ h => by rw [perform, hsame]; exact h⟩
  · obtain ⟨hsound, hsame⟩ := rollback_sound py hs confirmation
    exact ⟨hsound, fun _ _ h => by rw [perform, hsame]; exact h⟩

/-- A whole run. -/
theorem run_sound (hsigned : SignsVersions py host) (hs : Sound s) {t : Root}
    (h : Run py host s t) :
    Sound t ∧ ∀ name r, s.releases.lookup name = some r → t.releases.lookup name = some r := by
  induction h with
  | refl => exact ⟨hs, fun _ _ h => h⟩
  | step call _ hin ih =>
    obtain ⟨hsound, hkeep⟩ := perform_sound hsigned ih.1 hin
    exact ⟨hsound, fun name r hr => hkeep name r (ih.2 name r hr)⟩

/-- **The selectors over every run of contained calls from an empty root.** They select complete
staged releases that differ, and `previous` is never set alone; what is staged stays; a successful
activation of another version selects it, keeps the one before it and is no downgrade; a rollback to
the previous version succeeds and exchanges the two, so that a second one restores the root. -/
theorem selectors_kept (hsigned : SignsVersions py host) {t : Root}
    (h : Run py host emptyRoot t) :
    Sound t ∧
      (∀ u, Run py host t u → ∀ name r, t.releases.lookup name = some r →
        u.releases.lookup name = some r) ∧
      (∀ version confirmation c report, Selects t t.current c → version ≠ c →
        (activate py host t version confirmation).2 = .ok report →
        (activate py host t version confirmation).1 =
            ⟨t.releases, .link (.staged version), .link (.staged c)⟩ ∧ ¬ Below version c) ∧
      ∀ c p, Selects t t.current c → Selects t t.previous p →
        (∃ report, (rollback py t p).2 = .ok report) ∧
          (rollback py t p).1 = ⟨t.releases, .link (.staged p), .link (.staged c)⟩ ∧
          (rollback py (rollback py t p).1 c).1 = t := by
  obtain ⟨hs, -⟩ := run_sound hsigned sound_empty h
  refine ⟨hs, fun u hu => (run_sound hsigned hs hu).2, ?_, ?_⟩
  · intro version confirmation c report hc hne hok
    exact activate_success hs hc hne hok
  · intro c p hc hp
    have hne : p ≠ c := by
      rcases hs.selectors with ⟨hnone, -⟩ | ⟨c', hc', hnone | ⟨p', hp', hne⟩⟩
      · exact absurd (hnone.symm.trans hc.1) (by simp)
      · exact absurd (hnone.symm.trans hp.1) (by simp)
      · obtain rfl := Place.staged.inj (Selector.link.inj (hc.1.symm.trans hc'.1))
        obtain rfl := Place.staged.inj (Selector.link.inj (hp.1.symm.trans hp'.1))
        exact hne
    obtain ⟨hout, hok⟩ := rollback_exchanges py hs hc hp hne
    refine ⟨hok, hout, ?_⟩
    rw [hout]
    have hback := sound_link hs (mem_names.mpr hp.2)
      (Or.inr ⟨c, mem_names.mpr hc.2, rfl, Ne.symm hne⟩)
    rw [(rollback_exchanges py hback ⟨rfl, hp.2⟩ ⟨rfl, hc.2⟩ (Ne.symm hne)).1]
    rcases t with ⟨releases, current, previous⟩
    obtain rfl : current = .link (.staged c) := hc.1
    obtain rfl : previous = .link (.staged p) := hp.1
    rfl

/-! ### A host with two bundles, and a build directory elsewhere -/

/-- The manifest of a version whose artifact is one byte. -/
def sampleManifest (version : Str) : Dict :=
  [(lit "schema", .str (lit "cloudx.release-manifest.v1")), (lit "product", .str (lit "cloudx")),
    (lit "version", .str version), (lit "activation", .obj [(lit "automatic", .bool false)]),
    (lit "artifacts", .arr [.obj [(lit "component", .str (lit "cloud")),
      (lit "name", .str (lit "cloudx-cloud.pyz")), (lit "size", .int 1),
      (lit "sha256", .str [0, 7])]])]

/-- An interpreter that decodes two manifests. -/
def samplePy : Py := Python.Dump.tablePy []
  [([1], .obj (sampleManifest (lit "1.0.0"))), ([2], .obj (sampleManifest (lit "1.1.0")))] []

/-- A bundle with this manifest. -/
def sampleBundle (manifest : Bytes) : Bundle :=
  .ok [⟨manifest, some [9], fun _ => some [7]⟩]

/-- A host that trusts these bundles, with an artifact in `/srv/build`. -/
def sampleHost : Host where
  verifies bytes signature := (bytes = [1] || bytes = [2]) && signature = [9]
  selfCheck _ _ _ := true
  isPublic _ := true
  allowedSigners := [8]
  pid := 42
  place _ version := if ValidName version then .staged version else .elsewhere version
  holdsArtifact path := path = lit "/srv/build"
  iterdir releases := releases
  place_name _ _ h := if_pos h
  iterdir_perm _ := List.Perm.refl _

theorem sample_signed : SignsVersions samplePy sampleHost := by
  intro bytes signature manifest version hverifies hloads hversion
  have hbytes : bytes = [1] ∨ bytes = [2] := by
    have := (Bool.and_eq_true_iff.mp hverifies).1
    simpa using this
  rcases hbytes with rfl | rfl
  · obtain rfl : sampleManifest (lit "1.0.0") = manifest := by
      have : Loaded.value (.obj (sampleManifest (lit "1.0.0"))) = .value (.obj manifest) := hloads
      exact Json.obj.inj (Loaded.value.inj this)
    obtain rfl : lit "1.0.0" = version := Json.str.inj hversion
    decide +kernel
  · obtain rfl : sampleManifest (lit "1.1.0") = manifest := by
      have : Loaded.value (.obj (sampleManifest (lit "1.1.0"))) = .value (.obj manifest) := hloads
      exact Json.obj.inj (Loaded.value.inj this)
    obtain rfl : lit "1.1.0" = version := Json.str.inj hversion
    decide +kernel

/-- Two releases staged and activated one after the other. -/
def sampleRoot : Root :=
  perform samplePy sampleHost (perform samplePy sampleHost (perform samplePy sampleHost
    (perform samplePy sampleHost emptyRoot (.stage (sampleBundle [1])))
    (.activate (lit "1.0.0") (lit "1.0.0"))) (.stage (sampleBundle [2])))
    (.activate (lit "1.1.0") (lit "1.1.0"))

theorem sample_run : Run samplePy sampleHost emptyRoot sampleRoot := by
  refine .step _ (.step _ (.step _ (.step _ (.refl _) trivial) ?_) trivial) ?_
  · intro _ _ path hpath
    rw [sampleHost.place_name _ _ (by decide +kernel)] at hpath
    exact absurd hpath (by simp)
  · intro _ _ path hpath
    rw [sampleHost.place_name _ _ (by decide +kernel)] at hpath
    exact absurd hpath (by simp)

/-- The second activation keeps the first release as the previous one. -/
theorem selectors_kept_two :
    Sound sampleRoot ∧ sampleRoot.current = .link (.staged (lit "1.1.0")) ∧
      sampleRoot.previous = .link (.staged (lit "1.0.0")) :=
  ⟨(selectors_kept sample_signed sample_run).1, by decide +kernel, by decide +kernel⟩

/-- **The first activation checks no version**: a path to an artifact elsewhere is linked, although
the call fails, and `current` selects no staged release. -/
theorem unchecked_version_linked :
    (activate samplePy sampleHost emptyRoot (lit "/srv/build") (lit "/srv/build")).1.current =
        .link (.elsewhere (lit "/srv/build")) ∧
      ¬ Sound (activate samplePy sampleHost emptyRoot (lit "/srv/build") (lit "/srv/build")).1 := by
  have hcurrent : (activate samplePy sampleHost emptyRoot (lit "/srv/build")
      (lit "/srv/build")).1.current = .link (.elsewhere (lit "/srv/build")) := by decide +kernel
  refine ⟨hcurrent, fun hs => ?_⟩
  rcases hs.selectors with ⟨hc, -⟩ | ⟨c, hc, -⟩
  · rw [hcurrent] at hc
    exact absurd hc (by simp)
  · rw [Selects, hcurrent] at hc
    exact absurd hc.1 (by simp)

end Cloudx.Cloud.ReleaseRuns
