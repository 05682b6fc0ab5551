import Cloudx.Cloud.QuarantineRuns

/-! # The places of a restore

A restore takes its source from the archive: the path of the archived file is resolved before it is
compared with the archive directory. The path it restores to is not: of an entry of an older tool the text
of `source_path` has to start with the auth directory, and `..` in it leads out again. Such an entry, and a
link at the place that leads nowhere, are the ways for a restore to leave its directories
(`restore_inside_iff`). -/

namespace Cloudx.Cloud.RestorePlaces

open Cloudx.Lib.Store Cloudx.Lib.Fault
open Cloudx.Python.Text Cloudx.Python.Value Cloudx.Python.Dump
open Cloudx.Cloud.Disk Cloudx.Cloud.Quarantine Cloudx.Cloud.QuarantineCalls

/-! ### What an entry says -/

/-- The components of a path with `..` resolved by the text, from `cur` on. -/
def settle : List Str → List Str → List Str
  | cur, [] => cur
  | cur, part :: rest =>
    if part = lit ".." then settle cur.dropLast rest else settle (cur ++ [part]) rest

/-- The entry has the form that `quarantine_auth_record` writes. -/
def isCurrent (entry : Dict) : Bool :=
  truthy (get entry (lit "source_relative")) && truthy (get entry (lit "quarantine_name"))

/-- The text of `source_path` in an entry of an older tool. -/
def sourcePath (py : Py) (entry : Dict) : Str := py.str (pyOr (get entry (lit "source_path")) (.str []))

/-- The components of the path that an entry is restored to. -/
def placeParts (cfg : Config) (py : Py) (entry : Dict) : List Str :=
  if isCurrent entry then
    cfg.authDir.map FileName.text ++ pathParts (py.str (get entry (lit "source_relative")))
  else pathParts (sourcePath py entry)

variable {cfg : Config} {py : Py} {w : World}

theorem dots_not_name (p : Path) : lit ".." ∉ p.map FileName.text := by
  intro hmem
  obtain ⟨n, -, hn⟩ := List.mem_map.mp hmem
  exact n.valid.2.2.2.2 hn

theorem settle_plain : ∀ {parts cur : List Str}, lit ".." ∉ parts → settle cur parts = cur ++ parts
  | [], cur, _ => by rw [settle, List.append_nil]
  | part :: parts, cur, h => by
    rw [List.mem_cons, not_or] at h
    rw [settle, if_neg (Ne.symm h.1), settle_plain h.2, List.append_assoc, List.singleton_append]

/-- Where a path leads is what its text says. -/
theorem settle_resolve : ∀ {parts : List Str} {cur p : Path}, resolve w cur parts = some p →
    p.map FileName.text = settle (cur.map FileName.text) parts
  | [], cur, p, h => by
    obtain rfl := Option.some.inj h
    rfl
  | part :: rest, cur, p, h => by
    rw [resolve] at h
    rw [settle]
    split_ifs at h ⊢ with hdots
    · rw [settle_resolve h, List.map_dropLast]
    · rcases hname : FileName.ofStr? part with _ | name
      · rw [hname] at h
        cases h
      · rw [hname] at h
        have htext : name.text = part := by
          unfold FileName.ofStr? at hname
          split_ifs at hname
          rw [← Option.some.inj hname]
        rw [settle_resolve h, List.map_append, List.map_singleton, htext]

/-- The place of an entry, and that of the current form below the auth directory. -/
theorem legacyEntryPaths_place {entry : Dict} {target source : List Str}
    (h : legacyEntryPaths cfg py entry = .ok (target, source)) :
    target = placeParts cfg py entry ∧ (isCurrent entry = true →
      ∃ parts, target = cfg.authDir.map FileName.text ++ parts ∧ lit ".." ∉ parts) := by
  unfold legacyEntryPaths at h
  simp only at h
  unfold placeParts
  by_cases hcurrent : isCurrent entry = true
  · have hform := hcurrent
    unfold isCurrent at hform
    rw [if_pos hform] at h
    rw [if_pos hcurrent]
    split_ifs at h with hinvalid hname
    obtain ⟨rfl, -⟩ := Prod.mk.inj (Except.ok.inj h)
    refine ⟨rfl, fun _ => ⟨_, rfl, fun hmem => hinvalid ?_⟩⟩
    simp [hmem]
  · have hform := hcurrent
    unfold isCurrent at hform
    rw [if_neg hform] at h
    rw [if_neg hcurrent]
    split_ifs at h
    obtain ⟨rfl, -⟩ := Prod.mk.inj (Except.ok.inj h)
    exact ⟨rfl, fun hyes => absurd hyes hcurrent⟩

/-- What a selector has matched is an entry of the list. -/
theorem matchEntries_entry {selector : Str} : ∀ {start : ℕ} {entries : List Json}
    {found : List (ℕ × List Str × List Str)}, matchEntries cfg py selector start entries = .ok found →
      ∀ x ∈ found, ∃ entry, .obj entry ∈ entries ∧ entries[x.1 - start]? = some (.obj entry) ∧
        start ≤ x.1 ∧ legacyEntryPaths cfg py entry = .ok x.2
  | start, [], found, h, x, hx => by
    obtain rfl := Except.ok.inj h
    simp at hx
  | start, e :: rest, found, h, x, hx => by
    cases e with
    | obj entry =>
      rw [matchEntries] at h
      rcases hpaths : legacyEntryPaths cfg py entry with err | ⟨target, source⟩
      · rw [hpaths] at h
        cases h
      · rw [hpaths] at h
        simp only at h
        rcases hrest : matchEntries cfg py selector (start + 1) rest with err | more
        · rw [hrest] at h
          cases h
        · rw [hrest, Except.map, Except.ok.injEq] at h
          have hlater : x ∈ more → ∃ other, .obj other ∈ Json.obj entry :: rest ∧
              (Json.obj entry :: rest)[x.1 - start]? = some (.obj other) ∧ start ≤ x.1 ∧
                legacyEntryPaths cfg py other = .ok x.2 := by
            intro hmem
            obtain ⟨other, hother, hget, hle, hok⟩ := matchEntries_entry hrest x hmem
            have hplace : x.1 - start = x.1 - (start + 1) + 1 := by omega
            refine ⟨other, List.mem_cons_of_mem _ hother, ?_, by omega, hok⟩
            rw [hplace, List.getElem?_cons_succ, hget]
          by_cases hanswer : selector ∈ selectors py entry source
          · rw [if_pos hanswer] at h
            rw [← h] at hx
            rcases List.mem_cons.mp hx with rfl | hx
            · exact ⟨entry, List.mem_cons_self, by simp, Nat.le_refl _, hpaths⟩
            · exact hlater hx
          · rw [if_neg hanswer] at h
            exact hlater (h ▸ hx)
    | null => cases h
    | bool b => cases h
    | int n => cases h
    | float x => cases h
    | str s => cases h
    | arr items => cases h

/-! ### Source and target -/

/-- The source is a regular file in the archive, and the target a place in the auth directory at which
nothing stands. -/
structure Inside (cfg : Config) (w : World) (source target : Path) : Prop where
  archived : cfg.archiveDir <+: source ∧ source ≠ cfg.archiveDir ∧ (fileAt w source).isSome
  inAuth : cfg.authDir <+: target ∧ target ≠ cfg.authDir
  free : target ∉ w.dirs ∧ w.nodes.lookup target = none

/-- The entry at the place `index` of the manifest is restored into the auth directory: it has the current
form, or its `source_path` with `..` resolved is below that directory; and at its place stands no link that
leads nowhere. -/
def PlacedInside (cfg : Config) (py : Py) (w : World) (document : Dict) (index : ℕ) : Prop :=
  ∃ entry, (entriesOf document)[index]? = some (.obj entry) ∧
    (isCurrent entry = true ∨
      cfg.authDir.map FileName.text <+: settle [] (pathParts (sourcePath py entry))) ∧
    ∀ p : Path, p.map FileName.text = settle [] (placeParts cfg py entry) →
      w.nodes.lookup p ≠ some (.symlink false)

theorem text_injective : Function.Injective FileName.text := by
  rintro ⟨a, _⟩ ⟨b, _⟩ rfl
  rfl

theorem map_text_prefix {p q : Path} : p.map FileName.text <+: q.map FileName.text ↔ p <+: q := by
  constructor
  · intro h
    obtain ⟨more, hmore⟩ := h
    obtain ⟨p', q', rfl, hp, -⟩ := List.map_eq_append_iff.mp hmore.symm
    rw [List.map_injective_iff.mpr text_injective hp.symm]
    exact List.prefix_append _ _
  · exact fun h => h.map _

/-- A place that does not exist, or at which a link leads nowhere. -/
theorem not_exists_iff {p : Path} (h : pathExists w p = false) : p ∉ w.dirs ∧
    (w.nodes.lookup p = none ∨ w.nodes.lookup p = some (.symlink false)) := by
  rw [pathExists, Bool.or_eq_false_iff, decide_eq_false_iff_not] at h
  refine ⟨h.1, ?_⟩
  rcases hnode : w.nodes.lookup p with _ | node
  · exact .inl rfl
  · rw [hnode] at h
    cases node with
    | symlink alive =>
      obtain rfl : alive = false := h.2
      exact .inr rfl
    | file f => cases h.2
    | locked f => cases h.2
    | special => cases h.2

/-- **A restore that passes its checks stays in its directories exactly if** the entry it selects is placed
inside. -/
theorem accepted_inside_iff {sameDevice : Bool} {selector : Str} {document : Dict} {index : ℕ}
    {source target : Path}
    (h : RestoreAccepted cfg py sameDevice w selector document index source target) :
    Inside cfg (lockedWorld cfg w) source target ↔
      PlacedInside cfg py (lockedWorld cfg w) document index := by
  obtain ⟨⟨targetParts, sourceParts, hmatch, -, htarget⟩, -, ⟨relative, hrelative⟩, hfree⟩ :=
    restoreSelect_spec h.selected
  obtain ⟨entry, -, hget, -, hpaths⟩ :=
    matchEntries_entry hmatch (index, targetParts, sourceParts) List.mem_cons_self
  rw [Nat.sub_zero] at hget
  obtain ⟨hparts, hplain⟩ := legacyEntryPaths_place hpaths
  have hsettle : target.map FileName.text = settle [] (placeParts cfg py entry) := by
    rw [← hparts]
    exact settle_resolve htarget
  obtain ⟨hsourceDir, ⟨f, hf⟩, hbelow, -⟩ := containedRelative_ok hrelative
  obtain ⟨hdir, hnode⟩ := not_exists_iff hfree
  have hmade : cfg.archiveDir ∈ (lockedWorld cfg w).dirs :=
    (locked_dirs cfg w).mpr (.inr (List.prefix_refl _))
  have hauth : cfg.authDir ∈ (lockedWorld cfg w).dirs := by
    have hroot := h.root
    unfold ensureRealDirectory at hroot
    split_ifs at hroot with hin
    exact (locked_dirs cfg w).mpr (.inl hin)
  constructor
  · rintro ⟨-, ⟨hin, -⟩, -, hnone⟩
    refine ⟨entry, hget, ?_, fun p hp => ?_⟩
    · by_cases hcurrent : isCurrent entry = true
      · exact .inl hcurrent
      · refine .inr ?_
        rw [← map_text_prefix, hsettle, placeParts, if_neg hcurrent] at hin
        exact hin
    · have hsame : p = target := List.map_injective_iff.mpr text_injective (hp.trans hsettle.symm)
      rw [hsame, hnone]
      simp
  · rintro ⟨other, hother, hplace, hlink⟩
    obtain rfl : entry = other := by
      rw [hget] at hother
      exact Json.obj.inj (Option.some.inj hother)
    refine ⟨⟨hbelow, fun he => hsourceDir (he ▸ hmade), by rw [hf]; rfl⟩,
      ⟨?_, fun he => hdir (he ▸ hauth)⟩, hdir, hnode.resolve_right (hlink target hsettle)⟩
    rw [← map_text_prefix, hsettle]
    by_cases hcurrent : isCurrent entry = true
    · obtain ⟨parts, hbelow, hdots⟩ := hplain hcurrent
      rw [← hparts, hbelow, settle_plain, List.nil_append]
      · exact List.prefix_append _ _
      · exact fun hmem => (List.mem_append.mp hmem).elim (dots_not_name cfg.authDir) hdots
    · rw [placeParts, if_neg hcurrent]
      exact hplace.resolve_left hcurrent

/-- **Where a restore moves a file.** A call that changes any file but the lock moves the one of an entry
that passes its checks; the file is taken from the archive to a free place in the auth directory exactly if
that entry is placed inside. -/
theorem restore_inside_iff (cfg : Config) (py : Py) (w : World) (sameDevice : Bool) (fails : Step → Bool)
    (selector : Str) :
    (∀ p, p ≠ cfg.inArchive lockName →
      fileAt (restoreQuarantinedAuth cfg py sameDevice fails selector w).2 p ≠ fileAt w p →
        ∃ document index source target,
          RestoreAccepted cfg py sameDevice w selector document index source target ∧
          restoreQuarantinedAuth cfg py sameDevice fails selector w =
            restoreBody cfg py fails document index source target (lockedWorld cfg w)) ∧
    ∀ document index source target,
      RestoreAccepted cfg py sameDevice w selector document index source target →
        (Inside cfg (lockedWorld cfg w) source target ↔
          PlacedInside cfg py (lockedWorld cfg w) document index) := by
  refine ⟨fun p hp hchanged => ?_, fun _ _ _ _ h => accepted_inside_iff h⟩
  by_cases hprepare : fails .prepare = true
  · have hsame : (restoreQuarantinedAuth cfg py sameDevice fails selector w).2 = w := by
      unfold restoreQuarantinedAuth
      cases ensureRealDirectory w cfg.authDir with
      | error e => rfl
      | ok _ => exact congrArg Prod.snd (Act.bind_error (Act.step_fail hprepare _ _ _))
    rw [hsame] at hchanged
    exact absurd rfl hchanged
  · rcases @restore_checks cfg py w sameDevice fails (eq_false_of_ne_true hprepare) selector with
      ⟨-, e, w', hw, hrun⟩ | haccepted
    · rw [hrun] at hchanged
      rcases hw with rfl | rfl
      · exact absurd rfl hchanged
      · exact absurd (locked_fileAt cfg w hp) hchanged
    · exact haccepted

/-! ### An entry of each form -/

/-- The disk with `/archive/a.json` and a manifest with the entry `entry`. -/
def entryDisk (entry : Dict) : World :=
  ⟨((∅ : Dir Path Node).insert (sampleConfig.inArchive aJson) (.file (textFile "one"))).insert
      (sampleConfig.inArchive manifestName)
      (.file (jsonFile onePy false [(lit "entries", .arr [.obj entry])])),
    {[], sampleConfig.authDir, sampleConfig.archiveDir}, none⟩

/-- An entry that `quarantine_auth_record` writes. -/
def currentEntry : Dict :=
  [(lit "quarantine_name", .str (lit "a.json")), (lit "source_relative", .str (lit "a.json"))]

/-- An entry of an older tool that leads out of `/auth`. -/
def climbingEntry : Dict :=
  [(lit "quarantine_path", .str (lit "/archive/a.json")),
    (lit "source_path", .str (lit "/auth/../b.json"))]

/-- The manifest with one entry, as it is read. -/
def entryDocument (entry : Dict) : Dict :=
  [(lit "entries", .arr [.obj entry]), (lit "schema", .str manifestSchema)]

/-- `/b.json` -/
def outsidePath : Path := [⟨lit "b.json", by decide⟩]

/-- The entry is restored to `/auth/a.json`. -/
theorem current_restored_inside : Inside sampleConfig (lockedWorld sampleConfig (entryDisk currentEntry))
    (sampleConfig.inArchive aJson) samplePath := by
  have haccepted : RestoreAccepted sampleConfig onePy true (entryDisk currentEntry) (lit "a.json")
      (entryDocument currentEntry) 0 (sampleConfig.inArchive aJson) samplePath :=
    ⟨by decide +kernel, by decide +kernel, by decide +kernel, by decide +kernel⟩
  refine ((restore_inside_iff sampleConfig onePy (entryDisk currentEntry) true steady
    (lit "a.json")).2 _ _ _ _ haccepted).mpr ⟨currentEntry, rfl, .inl (by decide), fun p hp => ?_⟩
  have hplace : samplePath.map FileName.text = settle [] (placeParts sampleConfig onePy currentEntry) := by
    decide +kernel
  obtain rfl : p = samplePath := List.map_injective_iff.mpr text_injective (hp.trans hplace.symm)
  decide +kernel

/-- The other entry is restored to `/b.json`. -/
theorem climbing_restored_outside :
    (restoreQuarantinedAuth sampleConfig onePy true steady (lit "a.json") (entryDisk climbingEntry)).1 =
      .ok (sampleConfig.inArchive aJson, outsidePath) ∧
    ¬ Inside sampleConfig (lockedWorld sampleConfig (entryDisk climbingEntry))
      (sampleConfig.inArchive aJson) outsidePath :=
  ⟨by decide +kernel, fun h => absurd h.inAuth.1 (by decide)⟩

end Cloudx.Cloud.RestorePlaces
