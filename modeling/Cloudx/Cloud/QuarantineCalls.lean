import Cloudx.Cloud.Quarantine

/-! # The steps of a quarantine call

One lemma for each function the two calls are made of: where `_unique_archive_path` leads
(`uniqueArchivePath_spec`), what `_manifest` reads (`manifest_entries`), how `_atomic_write_json` can
end (`atomicWriteJson_cases`), and what the whole body of a call does when it is not disturbed. -/

namespace Cloudx.Cloud.QuarantineCalls

open Cloudx.Lib.Store Cloudx.Lib.Fresh Cloudx.Lib.Fault
open Cloudx.Python.Text Cloudx.Python.Value Cloudx.Python.Dump
open Cloudx.Cloud.Disk Cloudx.Cloud.Quarantine

variable {cfg : Config} {py : Py} {w : World}

/-! ### Paths -/

theorem inArchive_injective (cfg : Config) : Function.Injective cfg.inArchive := by
  intro a b h
  simpa [Config.inArchive] using h

/-- A path below the auth directory is not in the archive. -/
theorem ne_inArchive {p : Path} (h : cfg.authDir <+: p) (n : FileName) : p ≠ cfg.inArchive n := by
  rintro rfl
  rcases List.prefix_or_prefix_of_prefix h (List.prefix_append cfg.archiveDir [n]) with h' | h'
  · exact cfg.apart.1 h'
  · exact cfg.apart.2 h'

theorem manifest_ne_lock : manifestName ≠ lockName := by decide

theorem containedRelative_ok {path root relative : Path}
    (h : containedRelative w path root = .ok relative) :
    path ∉ w.dirs ∧ (∃ f, fileAt w path = some f) ∧ root <+: path ∧ root ++ relative = path := by
  unfold containedRelative at h
  by_cases hd : path ∈ w.dirs
  · rw [if_pos hd] at h; exact absurd h (by simp)
  rw [if_neg hd] at h
  split at h
  · exact absurd h (by simp)
  · next node hn =>
    split at h
    · exact absurd h (by simp)
    · next f hf =>
      split_ifs at h with hp
      simp only [Except.ok.injEq] at h
      obtain ⟨t, rfl⟩ := hp
      refine ⟨hd, ⟨f, by rw [fileAt, hn]; exact hf⟩, List.prefix_append _ _, ?_⟩
      rw [← h, List.drop_left]

/-! ### The archive name -/

/-- **The name `_unique_archive_path` returns** is not reserved, and nothing has it: it is the
source's own or a numbered one. -/
theorem uniqueArchivePath_spec (cfg : Config) (w : World) (name : FileName) :
    freeName cfg w (uniqueArchivePath cfg w name) ∧
      (uniqueArchivePath cfg w name = name ∨ ∃ k, uniqueArchivePath cfg w name = numbered name k) := by
  unfold uniqueArchivePath
  split_ifs with h
  · exact ⟨h, Or.inl rfl⟩
  · refine ⟨?_, Or.inr ⟨_, rfl⟩⟩
    -- the taken names: the reserved ones and the last components of what is on the disk
    let taken : Finset FileName := {manifestName, lockName} ∪
      (w.nodes.keys ∪ w.dirs).image fun p => p.getLast?.getD manifestName
    have hcard : taken.card ≤ (w.nodes.keys ∪ w.dirs).card + 2 := by
      refine (Finset.card_union_le _ _).trans ?_
      have h1 := @Finset.card_image_le _ _ (w.nodes.keys ∪ w.dirs)
        (fun p => p.getLast?.getD manifestName) _
      have h2 : ({manifestName, lockName} : Finset FileName).card ≤ 2 := Finset.card_le_two
      omega
    obtain ⟨j, h1, h2, h3⟩ := exists_free (numbered name) (numbered_injective name) taken 2
    refine (search_spec (fun index => freeName cfg w (numbered name index)) _ 2
      ⟨j, h1, by omega, ?_⟩).1
    simp only [taken, Finset.mem_union, Finset.mem_insert, Finset.mem_singleton, Finset.mem_image,
      not_or, not_exists, not_and] at h3
    have hlast : ∀ p : Path, p = cfg.inArchive (numbered name j) →
        p.getLast?.getD manifestName = numbered name j := by
      rintro p rfl; simp [Config.inArchive]
    have hfree : pathExists w (cfg.inArchive (numbered name j)) = false := by
      have hn : cfg.inArchive (numbered name j) ∉ w.nodes := fun hm =>
        h3.2 _ (Or.inl (Finmap.mem_keys.mpr hm)) (hlast _ rfl)
      have hd : cfg.inArchive (numbered name j) ∉ w.dirs := fun hm => h3.2 _ (Or.inr hm) (hlast _ rfl)
      rw [pathExists, Finmap.lookup_eq_none.mpr hn]
      simp [hd]
    simp [freeName, hfree, h3.1]

theorem freeName_spec {name : FileName} (h : freeName cfg w name) : name ≠ manifestName ∧
    name ≠ lockName ∧ pathExists w (cfg.inArchive name) = false ∧ cfg.inArchive name ∉ w.dirs ∧
      fileAt w (cfg.inArchive name) = none := by
  simp only [freeName, Bool.and_eq_true, decide_eq_true_eq, Bool.not_eq_true'] at h
  obtain ⟨⟨h1, h2⟩, h3⟩ := h
  refine ⟨h1, h2, h3, ?_, fileAt_of_not_exists h3⟩
  intro hd
  simp [pathExists, hd] at h3

/-! ### The saved manifest -/

/-- The entries the manifest file holds; none if there is no readable manifest. -/
def savedEntries (cfg : Config) (w : World) : List Json :=
  match w.nodes.lookup (cfg.inArchive manifestName) with
  | some (.file ⟨_, .value (.obj document)⟩) => entriesOf document
  | _ => []

theorem savedEntries_congr {w w' : World}
    (h : w'.nodes.lookup (cfg.inArchive manifestName) = w.nodes.lookup (cfg.inArchive manifestName)) :
    savedEntries cfg w' = savedEntries cfg w := by
  rw [savedEntries, savedEntries, h]

/-- `_manifest` returns the saved entries. -/
theorem manifest_entries {document : Dict} (h : manifest cfg w = .ok document) :
    get document (lit "entries") = .arr (entriesOf document) ∧
      entriesOf document = savedEntries cfg w := by
  unfold manifest at h
  unfold savedEntries
  simp only at h
  split_ifs at h with hex
  · simp only [Except.ok.injEq] at h
    rw [Bool.not_eq_true', pathExists, Bool.or_eq_false_iff] at hex
    rcases hl : w.nodes.lookup (cfg.inArchive manifestName) with _ | node
    · rw [← h]; exact ⟨by decide, by decide⟩
    · rw [hl] at hex
      cases node with
      | symlink alive => rw [← h]; exact ⟨by decide, rfl⟩
      | file f => exact absurd hex.2 (by simp)
      | locked f => exact absurd hex.2 (by simp)
      | special => exact absurd hex.2 (by simp)
  · split at h
    · next file hl =>
      rw [hl]
      split_ifs at h with hsize
      split at h
      · exact absurd h (by simp)
      · exact absurd h (by simp)
      · exact absurd h (by simp)
      · next d hd =>
        obtain ⟨bytes, content⟩ := file
        simp only at hd
        subst hd
        split at h
        · next entries hent =>
          simp only [Except.ok.injEq] at h
          have hget : get document (lit "entries") = .arr entries := by
            rw [← h]
            split_ifs
            · exact hent
            · rw [get_set_ne _ (by decide), hent]
          simp only [entriesOf, hget, hent, and_self]
        · exact absurd h (by simp)
      · exact absurd h (by simp)
    · exact absurd h (by simp)

theorem entriesOf_set (document : Dict) (entries : List Json) :
    entriesOf (set document (lit "entries") (.arr entries)) = entries := by
  rw [entriesOf, get_set_self]

/-! ### Taking the lock -/

theorem locked_lookup (cfg : Config) (w : World) {p : Path} (h : p ≠ cfg.inArchive lockName) :
    (lockedWorld cfg w).nodes.lookup p = w.nodes.lookup p := by
  unfold lockedWorld
  simp only
  split_ifs
  · rfl
  · exact Finmap.lookup_insert_of_ne _ h

theorem locked_dirs (cfg : Config) (w : World) {p : Path} :
    p ∈ (lockedWorld cfg w).dirs ↔ p ∈ w.dirs ∨ p <+: cfg.archiveDir := by
  have : (lockedWorld cfg w).dirs = w.dirs ∪ cfg.archiveDir.inits.toFinset := by
    unfold lockedWorld
    simp only
    split_ifs <;> rfl
  rw [this, Finset.mem_union, List.mem_toFinset, List.mem_inits]

theorem locked_fileAt (cfg : Config) (w : World) {p : Path} (h : p ≠ cfg.inArchive lockName) :
    fileAt (lockedWorld cfg w) p = fileAt w p := by
  rw [fileAt, fileAt, locked_lookup cfg w h]

theorem inArchive_ne_manifest {n : FileName} (h : n ≠ manifestName) :
    cfg.inArchive n ≠ cfg.inArchive manifestName := fun he => h (inArchive_injective cfg he)

theorem manifest_ne_lockPath : cfg.inArchive manifestName ≠ cfg.inArchive lockName :=
  fun he => manifest_ne_lock (inArchive_injective cfg he)

/-- A path in or beside the archive is a directory before the lock is taken if it is one after. -/
theorem locked_dirs_of_not_below {p : Path} (h : ¬ p <+: cfg.archiveDir) :
    p ∈ (lockedWorld cfg w).dirs ↔ p ∈ w.dirs := by
  rw [locked_dirs]; exact or_iff_left h

theorem inArchive_not_below (n : FileName) : ¬ cfg.inArchive n <+: cfg.archiveDir := by
  intro h
  have := h.length_le
  rw [Config.inArchive, List.length_append, List.length_singleton] at this
  omega

theorem not_prefix_of_auth {p : Path} (h : cfg.authDir <+: p) : ¬ p <+: cfg.archiveDir :=
  fun hp => cfg.apart.1 (h.trans hp)

theorem locked_manifest (cfg : Config) (w : World) :
    manifest cfg (lockedWorld cfg w) = manifest cfg w := by
  have hex : pathExists (lockedWorld cfg w) (cfg.inArchive manifestName) =
      pathExists w (cfg.inArchive manifestName) := by
    unfold pathExists
    rw [locked_lookup cfg w manifest_ne_lockPath,
      decide_eq_decide.mpr (locked_dirs_of_not_below (inArchive_not_below manifestName))]
  rw [manifest, manifest, hex, locked_lookup cfg w manifest_ne_lockPath]

theorem locked_entries (cfg : Config) (w : World) :
    savedEntries cfg (lockedWorld cfg w) = savedEntries cfg w :=
  savedEntries_congr (locked_lookup cfg w manifest_ne_lockPath)

/-! ### Writing the manifest -/

/-- The disk with a JSON file written and the temporary gone. -/
def written (py : Py) (path : Path) (document : Dict) (w : World) : World :=
  { w with nodes := w.nodes.insert path (.file (jsonFile py false document)), temporary := none }

theorem savedEntries_written (py : Py) (document : Dict) (entries : List Json) (w : World) :
    savedEntries cfg (written py (cfg.inArchive manifestName)
      (set document (lit "entries") (.arr entries)) w) = entries := by
  rw [savedEntries, written, Finmap.lookup_insert]
  exact entriesOf_set document entries

/-- **How `_atomic_write_json` can end.** -/
theorem atomicWriteJson_cases (py : Py) (fails : WriteStep → Bool) (path : Path) (document : Dict)
    (w : World) :
    (atomicWriteJson py fails path document w = (.ok (), written py path document w) ∧
      (∀ s, fails s = false) ∧ clean py (.obj document)) ∨
    (atomicWriteJson py fails path document w = (.error .os, w) ∧ fails .create = true) ∨
    (atomicWriteJson py fails path document w = (.error .unicodeEncode, { w with temporary := none }) ∧
      fails .create = false ∧ (fails .encode = true ∨ ¬ clean py (.obj document))) ∨
    (atomicWriteJson py fails path document w = (.error .os, { w with temporary := none }) ∧
      clean py (.obj document) ∧
        (fails .flush = true ∨ fails .chmod = true ∨ fails .replace = true)) ∨
    (atomicWriteJson py fails path document w = (.error .os, written py path document w) ∧
      clean py (.obj document) ∧ fails .fsync = true) := by
  rw [← encodable_dumps]
  rcases h1 : fails .create with _ | _
  swap
  · right; left
    simp [atomicWriteJson, Act.bind_run, Act.step_fail h1]
  rcases h2 : fails .encode with _ | _
  swap
  · right; right; left
    simp [atomicWriteJson, Act.bind_run, Act.ensuring, Act.step_ok h1, Act.step_fail h2]
  by_cases he : encodable (dumps py false (.obj document)) = true
  swap
  · right; right; left
    simp [atomicWriteJson, Act.bind_run, Act.ensuring, Act.step_ok h1, Act.step_ok h2, he]
  rcases h3 : fails .flush with _ | _
  swap
  · right; right; right; left
    simp [atomicWriteJson, Act.bind_run, Act.ensuring, Act.step_ok h1, Act.step_ok h2, he,
      Act.step_fail h3]
  rcases h4 : fails .chmod with _ | _
  swap
  · right; right; right; left
    simp [atomicWriteJson, Act.bind_run, Act.ensuring, Act.step_ok h1, Act.step_ok h2, he,
      Act.step_ok h3, Act.step_fail h4]
  rcases h5 : fails .replace with _ | _
  swap
  · right; right; right; left
    simp [atomicWriteJson, Act.bind_run, Act.ensuring, Act.step_ok h1, Act.step_ok h2, he,
      Act.step_ok h3, Act.step_ok h4, Act.step_fail h5]
  rcases h6 : fails .fsync with _ | _
  swap
  · right; right; right; right
    simp [atomicWriteJson, Act.bind_run, Act.ensuring, Act.step_ok h1, Act.step_ok h2, he,
      Act.step_ok h3, Act.step_ok h4, Act.step_ok h5, Act.step_fail h6, written]
  left
  refine ⟨?_, fun s => by cases s <;> assumption, he⟩
  simp [atomicWriteJson, Act.bind_run, Act.ensuring, Act.step_ok h1, Act.step_ok h2, he,
    Act.step_ok h3, Act.step_ok h4, Act.step_ok h5, Act.step_ok h6, written]

/-! ### Moving a file and back -/

theorem fileAt_makeReadable (p : Path) (w : World) (q : Path) :
    fileAt (makeReadable p w) q = fileAt w q := by
  unfold makeReadable
  split
  · next f hf =>
    by_cases hq : q = p
    · subst hq; rw [fileAt_insert_self, fileAt, hf]; rfl
    · rw [fileAt_insert_ne w hq]
  · rfl

theorem makeReadable_rest (p : Path) (w : World) : (makeReadable p w).dirs = w.dirs ∧
    ∀ q, q ≠ p → (makeReadable p w).nodes.lookup q = w.nodes.lookup q := by
  unfold makeReadable
  split
  · exact ⟨rfl, fun q hq => Finmap.lookup_insert_of_ne _ hq⟩
  · exact ⟨rfl, fun _ _ => rfl⟩

/-- The file `f` has been moved from `source` to `target`, and nothing else. -/
structure Moved (source target : Path) (f : File) (w w' : World) : Prop where
  dirs : w'.dirs = w.dirs
  files : ∀ q, fileAt w' q = if q = target then some f else if q = source then none else fileAt w q
  nodes : ∀ q, q ≠ source → q ≠ target → w'.nodes.lookup q = w.nodes.lookup q
  readable : w.nodes.lookup source = some (.file f) → w'.nodes.lookup target = some (.file f)

theorem replaceStep_moved {source target : Path} {f : File} (h : fileAt w source = some f)
    (ht : target ∉ w.dirs) :
    ∃ w', replaceStep source target w = (.ok (), w') ∧ Moved source target f w w' := by
  obtain ⟨node, hn, hr⟩ := Option.bind_eq_some_iff.mp h
  refine ⟨{ w with nodes := (w.nodes.erase source).insert target node },
    by rw [replaceStep, osReplace, if_neg ht, hn]; rfl, rfl, fun q => ?_, fun q h1 h2 => ?_,
    fun hf => ?_⟩
  · rw [fileAt_replace, hr]
  · simp only
    rw [Finmap.lookup_insert_of_ne _ h2, Finmap.lookup_erase_ne h1]
  · simp only
    rw [Finmap.lookup_insert, ← hn, hf]

theorem Moved.chmod {source target : Path} {f : File} {w' : World} (h : Moved source target f w w') :
    Moved source target f w (makeReadable target w') := by
  obtain ⟨hd, hn⟩ := makeReadable_rest target w'
  refine ⟨hd.trans h.dirs, fun q => by rw [fileAt_makeReadable, h.files q],
    fun q h1 h2 => (hn q h2).trans (h.nodes q h1 h2), fun hf => ?_⟩
  have := h.readable hf
  rw [makeReadable, this]
  exact this

theorem Moved.temporary {source target : Path} {f : File} {w' : World}
    (h : Moved source target f w w') (t : Option File) :
    Moved source target f w { w' with temporary := t } := ⟨h.dirs, h.files, h.nodes, h.readable⟩

/-! ### The transaction -/

/-- The file `f` at `source` can be moved to `target`, which is neither the manifest nor the lock;
the manifest can be moved only as it was read. -/
structure Ready (cfg : Config) (source target : Path) (f : File) (w : World) : Prop where
  source_file : fileAt w source = some f
  source_dir : source ∉ w.dirs
  source_manifest : source = cfg.inArchive manifestName → w.nodes.lookup source = some (.file f)
  target_file : fileAt w target = none
  target_dir : target ∉ w.dirs
  target_manifest : target ≠ cfg.inArchive manifestName
  target_lock : target ≠ cfg.inArchive lockName

theorem Ready.ne {source target : Path} {f : File} (h : Ready cfg source target f w) :
    source ≠ target := by
  rintro rfl
  have := h.source_file.symm.trans h.target_file
  exact absurd this (by simp)

/-- The credentials and the manifest entries are those of `w`. -/
structure Unchanged (cfg : Config) (w w' : World) : Prop where
  files : ∀ q, q ≠ cfg.inArchive manifestName → q ≠ cfg.inArchive lockName → fileAt w' q = fileAt w q
  entries : savedEntries cfg w' = savedEntries cfg w

/-- The rollback of a transaction whose manifest write failed. -/
theorem rollback_run {fails : Step → Bool} {source target : Path} {f : File} {w1 : World}
    (hr : Ready cfg source target f w) (hfile : fileAt w1 target = some f) (hdirs : w1.dirs = w.dirs)
    (hroll : fails .rollbackMove = false ∧ fails .rollbackSource = false ∧
      fails .rollbackTarget = false) (lost : String) :
    ∃ w2, (Act.except (do
        .step fails .rollbackMove .os (replaceStep target source)
        .step fails .rollbackSource .os (pure ())
        .step fails .rollbackTarget .os (pure ()))
      (fun _ => .raise (.rejected lost)) : Act World PyError Unit) w1 = (.ok (), w2) ∧
      Moved target source f w1 w2 := by
  obtain ⟨w2, hrep, hback⟩ := replaceStep_moved hfile (hdirs ▸ hr.source_dir)
  refine ⟨w2, ?_, hback⟩
  simp only [Act.except, Act.bind_run, Act.step_ok hroll.1, Act.step_ok hroll.2.1,
    Act.step_ok hroll.2.2, hrep, Act.pure_run]

/-- A move and its rollback, with perhaps another manifest written between them, change at most the
manifest; and not even that if it is the file that was moved. -/
theorem Moved.back {source target : Path} {f : File} {w1 w2 w3 : World}
    (hr : Ready cfg source target f w) (h1 : Moved source target f w w1)
    (hsame : ∀ q, q ≠ cfg.inArchive manifestName → w2.nodes.lookup q = w1.nodes.lookup q)
    (h2 : Moved target source f w2 w3) :
    (∀ q, q ≠ cfg.inArchive manifestName → fileAt w3 q = fileAt w q) ∧
      (source = cfg.inArchive manifestName → savedEntries cfg w3 = savedEntries cfg w) ∧
      (source ≠ cfg.inArchive manifestName → w3.nodes.lookup (cfg.inArchive manifestName) =
        w2.nodes.lookup (cfg.inArchive manifestName)) := by
  refine ⟨fun q hq => ?_, fun hs => ?_, fun hs => h2.nodes _ hr.target_manifest.symm hs.symm⟩
  · have hfile : fileAt w2 q = fileAt w1 q := by rw [fileAt, fileAt, hsame q hq]
    rw [h2.files q, hfile, h1.files q]
    split_ifs with h3 h4
    · subst h3; exact hr.source_file.symm
    · subst h4; exact hr.target_file.symm
    · rfl
  · refine savedEntries_congr ?_
    have hman := hr.source_manifest hs
    rw [← hs, hman]
    exact h2.readable (by rw [hsame _ hr.target_manifest, h1.readable hman])

/-- **How a transaction can end**, when the rollback is not itself disturbed: it is done; the move
failed; the file is left at the target; everything is as it was; or a new manifest is left. -/
theorem transaction_cases {fails : Step → Bool} {source target : Path} {f : File}
    (hr : Ready cfg source target f w)
    (hroll : fails .rollbackMove = false ∧ fails .rollbackSource = false ∧
      fails .rollbackTarget = false) (document : Dict) (undone lost : String) :
    (∃ w1, Moved source target f w w1 ∧ clean py (.obj document) ∧
      transaction cfg py fails source target document undone lost w =
        (.ok (), written py (cfg.inArchive manifestName) document w1)) ∨
    (transaction cfg py fails source target document undone lost w = (.error .os, w) ∧
      fails .move = true) ∨
    (∃ e w1, transaction cfg py fails source target document undone lost w = (.error e, w1) ∧
      Moved source target f w w1 ∧ fails .move = false ∧
      (fails .chmod = true ∨ fails .fsyncSource = true ∨ fails .fsyncTarget = true ∨
        fails (.write .create) = false ∧
          (fails (.write .encode) = true ∨ ¬ clean py (.obj document)))) ∨
    (∃ e w1, transaction cfg py fails source target document undone lost w = (.error e, w1) ∧
      Unchanged cfg w w1 ∧
      (fails (.write .create) = true ∨ clean py (.obj document) ∧ (fails (.write .flush) = true ∨
        fails (.write .chmod) = true ∨ fails (.write .replace) = true))) ∨
    (∃ e w1, transaction cfg py fails source target document undone lost w = (.error e, w1) ∧
      clean py (.obj document) ∧ fails (.write .fsync) = true ∧
      (source = cfg.inArchive manifestName → Unchanged cfg w w1) ∧
      (source ≠ cfg.inArchive manifestName → w1.nodes.lookup (cfg.inArchive manifestName) =
        some (.file (jsonFile py false document)))) := by
  obtain ⟨w0, hrep, hm0⟩ := replaceStep_moved hr.source_file hr.target_dir
  have hm := hm0.chmod
  have hleft : ∀ w1, Moved source target f w w1 → fileAt w1 target = some f := fun w1 h => by
    rw [h.files, if_pos rfl]
  rcases h1 : fails .move with _ | _
  swap
  · right; left
    exact ⟨by simp only [transaction, Act.bind_run, Act.step_fail h1], rfl⟩
  rcases h2 : fails .chmod with _ | _
  swap
  · right; right; left
    exact ⟨.os, w0, by simp only [transaction, Act.bind_run, Act.step_ok h1, hrep, Act.step_fail h2],
      hm0, rfl, Or.inl rfl⟩
  rcases h3 : fails .fsyncSource with _ | _
  swap
  · right; right; left
    exact ⟨.os, _, by simp only [transaction, Act.bind_run, Act.step_ok h1, hrep, Act.step_ok h2,
      Act.modify_run, Act.step_fail h3], hm, rfl, Or.inr (Or.inl rfl)⟩
  rcases h4 : fails .fsyncTarget with _ | _
  swap
  · right; right; left
    exact ⟨.os, _, by simp only [transaction, Act.bind_run, Act.step_ok h1, hrep, Act.step_ok h2,
      Act.modify_run, Act.step_ok h3, Act.pure_run, Act.step_fail h4], hm, rfl,
      Or.inr (Or.inr (Or.inl rfl))⟩
  -- the file is moved; what is left is the manifest write and its handler
  have hrun : transaction cfg py fails source target document undone lost w =
      writeOrUndo cfg py fails source target document undone lost (makeReadable target w0) := by
    simp only [transaction, Act.bind_run, Act.step_ok h1, hrep, Act.step_ok h2, Act.modify_run,
      Act.step_ok h3, Act.pure_run, Act.step_ok h4]
  rw [hrun]
  generalize makeReadable target w0 = w1 at hm
  -- an `OSError` that left no new manifest is undone
  have hundo : ∀ t, atomicWriteJson py (fun s => fails (.write s)) (cfg.inArchive manifestName)
      document w1 = (.error .os, { w1 with temporary := t }) →
      ∃ e w3, writeOrUndo cfg py fails source target document undone lost w1 = (.error e, w3) ∧
        Unchanged cfg w w3 := by
    intro t hw
    obtain ⟨w3, hback, h⟩ := rollback_run hr (hleft _ (hm.temporary t)) hm.dirs hroll lost
    obtain ⟨hfiles, hsame, hother⟩ := (hm.temporary t).back hr (fun _ _ => rfl) h
    refine ⟨.rejected undone, w3, ?_, fun q hq _ => hfiles q hq, ?_⟩
    · rw [writeOrUndo, Act.except_error hw, if_neg (by simp), Act.bind_ok hback, Act.raise_run]
    · by_cases hs : source = cfg.inArchive manifestName
      · exact hsame hs
      · exact savedEntries_congr
          ((hother hs).trans (hm.nodes _ (Ne.symm hs) hr.target_manifest.symm))
  rcases atomicWriteJson_cases py (fun s => fails (.write s)) (cfg.inArchive manifestName) document
    w1 with ⟨hw, -, hc⟩ | ⟨hw, hf⟩ | ⟨hw, hf, hc⟩ | ⟨hw, hc, hf⟩ | ⟨hw, hc, hf⟩
  · left
    exact ⟨w1, hm, hc, Act.except_ok hw⟩
  · right; right; right; left
    obtain ⟨e, w3, hrun, h⟩ := hundo w1.temporary hw
    exact ⟨e, w3, hrun, h, Or.inl hf⟩
  · right; right; left
    refine ⟨.unicodeEncode, _, ?_, hm.temporary none, rfl,
      Or.inr (Or.inr (Or.inr ⟨hf, hc⟩))⟩
    rw [writeOrUndo, Act.except_error hw, if_pos (by simp), Act.raise_run]
  · right; right; right; left
    obtain ⟨e, w3, hrun, h⟩ := hundo none hw
    exact ⟨e, w3, hrun, h, Or.inr ⟨hc, hf⟩⟩
  · right; right; right; right
    have hsame : ∀ q, q ≠ cfg.inArchive manifestName →
        (written py (cfg.inArchive manifestName) document w1).nodes.lookup q = w1.nodes.lookup q :=
      fun q hq => Finmap.lookup_insert_of_ne _ hq
    have hfile : fileAt (written py (cfg.inArchive manifestName) document w1) target = some f := by
      rw [fileAt, hsame _ hr.target_manifest]; exact hleft _ hm
    obtain ⟨w3, hback, h⟩ := rollback_run hr hfile hm.dirs hroll lost
    obtain ⟨hfiles, hold, hother⟩ := hm.back hr hsame h
    refine ⟨.rejected undone, w3, ?_, hc, hf, fun hs => ⟨fun q hq _ => hfiles q hq, hold hs⟩,
      fun hs => ?_⟩
    · rw [writeOrUndo, Act.except_error hw, if_neg (by simp), Act.bind_ok hback, Act.raise_run]
    · rw [hother hs, written, Finmap.lookup_insert]

/-- A transaction with no failing step is done, if its manifest can be encoded; else it raises with
the file moved. -/
theorem transaction_steady {source target : Path} {f : File} (hr : Ready cfg source target f w)
    (document : Dict) (undone lost : String) :
    (∃ w1, Moved source target f w w1 ∧ clean py (.obj document) ∧
      transaction cfg py steady source target document undone lost w =
        (.ok (), written py (cfg.inArchive manifestName) document w1)) ∨
    (∃ e w1, Moved source target f w w1 ∧
      transaction cfg py steady source target document undone lost w = (.error e, w1) ∧
      ¬ clean py (.obj document)) := by
  have hno : ∀ t : Step, steady t = true → False := fun t h => absurd h (by simp [steady])
  rcases @transaction_cases cfg py w steady source target f hr ⟨rfl, rfl, rfl⟩ document undone lost
    with h | ⟨-, h⟩ | ⟨e, w1, hrun, hm, -, h | h | h | ⟨-, h | h⟩⟩ |
      ⟨e, w1, -, -, h | ⟨-, h | h | h⟩⟩ | ⟨e, w1, -, -, h, -⟩
  · exact Or.inl h
  · exact (hno _ h).elim
  · exact (hno _ h).elim
  · exact (hno _ h).elim
  · exact (hno _ h).elim
  · exact (hno _ h).elim
  · exact Or.inr ⟨e, w1, hm, hrun, h⟩
  · exact (hno _ h).elim
  · exact (hno _ h).elim
  · exact (hno _ h).elim
  · exact (hno _ h).elim
  · exact (hno _ h).elim

/-! ### The checks of a quarantine -/

/-- The checks of `quarantine_auth_record` let the call through. -/
structure Accepted (cfg : Config) (sameDevice : Bool) (w : World) (source : Path) : Prop where
  root : ensureRealDirectory w cfg.authDir = .ok ()
  contained : ∃ relative, containedRelative w source cfg.authDir = .ok relative
  lockable : (lockArchive cfg w).1 = .ok ()
  device : sameDevice = true
  readable : ∃ document, manifest cfg w = .ok document

theorem lockArchive_cases (cfg : Config) (w : World) :
    lockArchive cfg w = (.error .os, w) ∨ lockArchive cfg w = (.ok (), lockedWorld cfg w) := by
  unfold lockArchive
  split_ifs
  · exact Or.inl rfl
  · exact Or.inr rfl

/-- The name a file gets in the archive. -/
def archiveNameOf (cfg : Config) (w : World) (source : Path) : FileName :=
  uniqueArchivePath cfg (lockedWorld cfg w) (source.getLast?.getD manifestName)

theorem archiveNameOf_free (cfg : Config) (w : World) (source : Path) :
    freeName cfg (lockedWorld cfg w) (archiveNameOf cfg w source) :=
  (uniqueArchivePath_spec cfg (lockedWorld cfg w) _).1

/-- A file the checks let through can be moved to its archive name. -/
theorem Accepted.ready {sameDevice : Bool} {source : Path} (h : Accepted cfg sameDevice w source) :
    ∃ relative f, containedRelative w source cfg.authDir = .ok relative ∧
      cfg.authDir ++ relative = source ∧ relative ≠ [] ∧ fileAt w source = some f ∧
      Ready cfg source (cfg.inArchive (archiveNameOf cfg w source)) f (lockedWorld cfg w) := by
  obtain ⟨relative, hrel⟩ := h.contained
  obtain ⟨hdir, ⟨f, hf⟩, hpre, hsplit⟩ := containedRelative_ok hrel
  obtain ⟨hm, hl, -, htd, htf⟩ := freeName_spec (archiveNameOf_free cfg w source)
  refine ⟨relative, f, hrel, hsplit, ?_, hf, ?_, ?_, ?_, htf, htd, inArchive_ne_manifest hm, ?_⟩
  · -- the auth directory itself is no file
    rintro rfl
    rw [List.append_nil] at hsplit
    have hroot := h.root
    rw [hsplit, ensureRealDirectory, if_neg hdir] at hroot
    split_ifs at hroot
  · rw [locked_fileAt cfg w (ne_inArchive hpre _), hf]
  · rw [locked_dirs_of_not_below (not_prefix_of_auth hpre)]; exact hdir
  · exact fun he => absurd he (ne_inArchive hpre _)
  · exact fun he => hl (inArchive_injective cfg he)

/-- **The checks of a quarantine**: a refused call leaves the disk as it was, but for the lock; an
accepted one goes on to its transaction. -/
theorem quarantine_checks {sameDevice : Bool} {fails : Step → Bool} (hprep : fails .prepare = false)
    (source : Path) (reason movedAt : Str) :
    (¬ Accepted cfg sameDevice w source ∧ ∃ e w', (w' = w ∨ w' = lockedWorld cfg w) ∧
      quarantineAuthRecord cfg py sameDevice fails source reason movedAt w = (.error e, w')) ∨
    (Accepted cfg sameDevice w source ∧ ∃ document relative, manifest cfg w = .ok document ∧
      containedRelative w source cfg.authDir = .ok relative ∧
      quarantineAuthRecord cfg py sameDevice fails source reason movedAt w =
        quarantineBody cfg py fails document source (archiveNameOf cfg w source)
          (entryOf py relative (archiveNameOf cfg w source) reason movedAt) (lockedWorld cfg w)) := by
  unfold quarantineAuthRecord
  rcases hroot : ensureRealDirectory w cfg.authDir with e | _
  · left
    exact ⟨fun h => absurd h.root (by simp [hroot]), e, w, Or.inl rfl, rfl⟩
  rcases hrel : containedRelative w source cfg.authDir with e | relative
  · left
    refine ⟨fun h => ?_, e, w, Or.inl rfl, rfl⟩
    obtain ⟨r, hr⟩ := h.contained
    rw [hrel] at hr; exact absurd hr (by simp)
  simp only
  rcases lockArchive_cases cfg w with hlock | hlock
  · left
    refine ⟨fun h => absurd h.lockable (by simp [hlock]), .os, w, Or.inl rfl, ?_⟩
    exact Act.bind_error (by rw [Act.step_ok hprep, hlock])
  have hgo : ∀ x, (do
      .step fails .prepare .os (lockArchive cfg)
      x : Act World PyError FileName) w = x (lockedWorld cfg w) :=
    fun x => Act.bind_ok (by rw [Act.step_ok hprep, hlock])
  rw [hgo]
  unfold quarantineLocked
  rcases sameDevice with _ | _
  · left
    exact ⟨fun h => absurd h.device (by simp), _, _, Or.inr rfl, rfl⟩
  simp only [Bool.not_true, Bool.false_eq_true, if_false]
  rw [locked_manifest]
  rcases hm : manifest cfg w with e | document
  · left
    refine ⟨fun h => ?_, e, _, Or.inr rfl, rfl⟩
    obtain ⟨d, hd⟩ := h.readable
    rw [hm] at hd; exact absurd hd (by simp)
  right
  have hacc : Accepted cfg true w source :=
    ⟨hroot, ⟨relative, hrel⟩, by rw [hlock], rfl, ⟨document, hm⟩⟩
  refine ⟨hacc, document, relative, rfl, rfl, ?_⟩
  obtain ⟨r, f, hr, hsplit, hne, -, -⟩ := hacc.ready
  rcases hlast : source.getLast? with _ | name
  · rw [List.getLast?_eq_none_iff] at hlast
    rw [hlast, List.append_eq_nil_iff] at hsplit
    exact absurd hsplit.2 hne
  · simp only [archiveNameOf, hlast, Option.getD_some]

/-! ### The text of the new manifest -/

theorem encodable_safeReason (py : Py) (reason : Str) : encodable (safeReason py reason) := by
  unfold safeReason
  simp only
  split_ifs with h
  · refine encodable_of_lt fun c hc => ?_
    have := List.all_eq_true.mp h.2.2 c hc
    simp only [plainChar, Bool.or_eq_true, Bool.and_eq_true, decide_eq_true_eq, beq_iff_eq] at this
    omega
  · decide

theorem encodable_iff {s : Str} : encodable s ↔ ∀ c ∈ s, c < 0xD800 ∨ 0xDFFF < c := by
  simp [encodable]

/-- The characters of a path's last name are among those of its text. -/
theorem mem_posix {p : Path} {n : FileName} (hn : n ∈ p) {c : ℕ} (hc : c ∈ n.text) :
    c ∈ posix p := by
  induction p with
  | nil => exact absurd hn (by simp)
  | cons m p ih =>
    rcases p with _ | ⟨k, p⟩
    · rw [List.mem_singleton.mp hn] at hc
      simpa [posix, List.intercalate] using hc
    · have hcut : posix (m :: k :: p) = m.text ++ 47 :: posix (k :: p) := by
        simp [posix, List.intercalate]
      rw [hcut, List.mem_append, List.mem_cons]
      rcases List.mem_cons.mp hn with rfl | hn
      · exact Or.inl hc
      · exact Or.inr (Or.inr (ih hn))

/-- A numbered name can be encoded if the name can. -/
theorem encodable_archiveName (cfg : Config) (w : World) {source relative : Path}
    (hsplit : cfg.authDir ++ relative = source) (hne : relative ≠ [])
    (h : encodable (posix relative)) : encodable (archiveNameOf cfg w source).text := by
  have hlast : source.getLast?.getD manifestName ∈ relative := by
    rw [← hsplit, List.getLast?_append_of_ne_nil _ hne, List.getLast?_eq_some_getLast hne]
    exact List.getLast_mem hne
  rw [encodable_iff] at h ⊢
  intro c hc
  rcases (uniqueArchivePath_spec cfg (lockedWorld cfg w) (source.getLast?.getD manifestName)).2 with
    he | ⟨k, he⟩
  · rw [archiveNameOf, he] at hc
    exact h c (mem_posix hlast hc)
  · rw [archiveNameOf, he] at hc
    rcases mem_numberedText hc with hc | rfl | hc
    · exact h c (mem_posix hlast hc)
    · omega
    · omega

/-- The manifest with the entry of this call can be encoded: the saved manifest, the path below the
auth directory and the time have no lone surrogate. -/
def Encodes (cfg : Config) (py : Py) (w : World) (source : Path) (movedAt : Str) : Prop :=
  ∀ document, manifest cfg w = .ok document → cleanFields py document ∧
    encodable (posix (source.drop cfg.authDir.length)) ∧ encodable movedAt

theorem clean_quarantine_iff {document : Dict} {source relative : Path} {reason movedAt : Str}
    (hm : manifest cfg w = .ok document) (hsplit : cfg.authDir ++ relative = source)
    (hne : relative ≠ []) :
    clean py (.obj (set document (lit "entries") (.arr (entriesOf document ++
      [entryOf py relative (archiveNameOf cfg w source) reason movedAt])))) ↔
      Encodes cfg py w source movedAt := by
  have hdrop : source.drop cfg.authDir.length = relative := by rw [← hsplit, List.drop_left]
  have hentry : clean py (entryOf py relative (archiveNameOf cfg w source) reason movedAt) ↔
      encodable (posix relative) ∧ encodable movedAt := by
    have hkeys : encodable (lit "source_relative") ∧ encodable (lit "quarantine_name") ∧
      encodable (lit "reason") ∧ encodable (lit "moved_at") := by decide
    simp only [entryOf, clean, cleanFields, hkeys, encodable_safeReason, Bool.true_and,
      Bool.and_true, Bool.and_eq_true]
    constructor
    · rintro ⟨h1, -, h2⟩; exact ⟨h1, h2⟩
    · rintro ⟨h1, h2⟩; exact ⟨h1, encodable_archiveName cfg w hsplit hne h1, h2⟩
  rw [clean_append (manifest_entries hm).1, hentry, Encodes, hdrop]
  constructor
  · intro h d hd
    rw [hm, Except.ok.injEq] at hd
    exact hd ▸ h
  · exact fun h => h document hm

/-! ### The checks of a restore -/

/-- The checks of `restore_quarantined_auth` let the call through. -/
structure RestoreAccepted (cfg : Config) (py : Py) (sameDevice : Bool) (w : World) (selector : Str)
    (document : Dict) (index : ℕ) (source target : Path) : Prop where
  root : ensureRealDirectory w cfg.authDir = .ok ()
  lockable : (lockArchive cfg w).1 = .ok ()
  readable : manifest cfg w = .ok document
  selected : restoreSelect cfg py sameDevice (lockedWorld cfg w) document selector =
    .ok (index, source, target)

/-- What a successful selection has made sure of. -/
theorem restoreSelect_spec {sameDevice : Bool} {document : Dict} {selector : Str} {index : ℕ}
    {source target : Path}
    (h : restoreSelect cfg py sameDevice w document selector = .ok (index, source, target)) :
    (∃ targetParts sourceParts, matchEntries cfg py selector 0 (entriesOf document) =
        .ok [(index, targetParts, sourceParts)] ∧ resolve w [] sourceParts = some source ∧
        resolve w [] targetParts = some target) ∧ sameDevice = true ∧
      (∃ relative, containedRelative w source cfg.archiveDir = .ok relative) ∧
      pathExists w target = false := by
  unfold restoreSelect at h
  split at h
  · exact absurd h (by simp)
  · next i targetParts sourceParts hmatch =>
    split at h
    · exact absurd h (by simp)
    · next s hs =>
      split at h
      · exact absurd h (by simp)
      · next relative hrel =>
        by_cases hname : (relative.getLast?.map FileName.text).getD [] ≠ sourceParts.getLast?.getD []
        · rw [if_pos hname] at h; exact absurd h (by simp)
        rw [if_neg hname] at h
        split at h
        · next parent t hp ht =>
          split_ifs at h with hfree hdev
          simp only [Except.ok.injEq, Prod.mk.injEq] at h
          obtain ⟨rfl, rfl, rfl⟩ := h
          rw [not_or, Bool.not_eq_true] at hfree
          exact ⟨⟨targetParts, sourceParts, hmatch, hs, ht⟩, by simpa using hdev, ⟨relative, hrel⟩,
            hfree.2⟩
        · split_ifs at h
        · exact absurd h (by simp)
  · exact absurd h (by simp)

/-- An entry that leads to a file of the archive and to a free path in a directory is selected. -/
theorem restoreSelect_own {document : Dict} {selector : Str} {index : ℕ} {path : Path} {name : FileName}
    {f : File} (hmatch : matchEntries cfg py selector 0 (entriesOf document) =
      .ok [(index, path.map FileName.text, (cfg.inArchive name).map FileName.text)])
    (hdir : cfg.inArchive name ∉ w.dirs) (hfile : fileAt w (cfg.inArchive name) = some f)
    (hup : path.dropLast ∈ w.dirs) (hfree : pathExists w path = false) :
    restoreSelect cfg py true w document selector = .ok (index, cfg.inArchive name, path) := by
  have hcontained : containedRelative w (cfg.inArchive name) cfg.archiveDir = .ok [name] := by
    obtain ⟨node, hnode, hregular⟩ := Option.bind_eq_some_iff.mp hfile
    rw [containedRelative, if_neg hdir, hnode]
    simp only [hregular]
    have hbelow : cfg.archiveDir <+: cfg.inArchive name := List.prefix_append _ _
    rw [if_pos hbelow, Config.inArchive, List.drop_left]
  have hlast : (([name] : Path).getLast?.map FileName.text).getD [] =
      ((cfg.inArchive name).map FileName.text).getLast?.getD [] := by
    simp [Config.inArchive]
  unfold restoreSelect
  rw [hmatch]
  simp only
  rw [← List.map_dropLast, resolve_plain, resolve_plain, resolve_plain, List.nil_append,
    List.nil_append, List.nil_append]
  simp only
  rw [hcontained]
  simp only
  rw [if_neg (not_not.mpr hlast), if_neg (by simp [hup, hfree]), if_neg (by simp)]

/-- After the lock is taken, its file is there. -/
theorem locked_lock_exists (cfg : Config) (w : World) :
    pathExists (lockedWorld cfg w) (cfg.inArchive lockName) = true := by
  unfold lockedWorld
  simp only
  split_ifs with h
  · exact h
  · simp [pathExists]

/-- A manifest that was read is a readable file, or there is none. -/
theorem manifest_node {document : Dict} (h : manifest cfg w = .ok document) :
    fileAt w (cfg.inArchive manifestName) = none ∨
      ∃ f, w.nodes.lookup (cfg.inArchive manifestName) = some (.file f) := by
  unfold manifest at h
  simp only at h
  split_ifs at h with hex
  · left; exact fileAt_of_not_exists (by simpa using hex)
  · split at h
    · next f hf => exact Or.inr ⟨f, hf⟩
    · exact absurd h (by simp)

theorem RestoreAccepted.ready {sameDevice : Bool} {selector : Str} {document : Dict} {index : ℕ}
    {source target : Path}
    (h : RestoreAccepted cfg py sameDevice w selector document index source target) :
    ∃ f, Ready cfg source target f (lockedWorld cfg w) := by
  obtain ⟨-, -, ⟨relative, hrel⟩, hfree⟩ := restoreSelect_spec h.selected
  obtain ⟨hdir, ⟨f, hf⟩, -, -⟩ := containedRelative_ok hrel
  have htd : target ∉ (lockedWorld cfg w).dirs := fun hd => by simp [pathExists, hd] at hfree
  have hmatch : entriesOf document ≠ [] := by
    intro hnil
    obtain ⟨⟨_, _, hm, -, -⟩, -⟩ := restoreSelect_spec h.selected
    rw [hnil, matchEntries] at hm
    exact absurd hm (by simp)
  have hexists : pathExists (lockedWorld cfg w) (cfg.inArchive manifestName) = true := by
    by_contra hno
    have hm := h.readable
    rw [← locked_manifest, manifest, Bool.not_eq_true _ |>.mp hno] at hm
    simp only [Bool.not_false, if_true, Except.ok.injEq] at hm
    exact hmatch (by rw [← hm]; decide)
  refine ⟨f, hf, hdir, ?_, fileAt_of_not_exists hfree, htd, ?_, ?_⟩
  · rintro rfl
    rcases manifest_node (locked_manifest cfg w ▸ h.readable) with hn | ⟨g, hg⟩
    · rw [hf] at hn; exact absurd hn (by simp)
    · rw [hg]
      rw [fileAt, hg] at hf
      exact congrArg (fun x => some (Node.file x)) (Option.some.inj hf)
  · rintro rfl; rw [hfree] at hexists; exact absurd hexists (by simp)
  · rintro rfl
    have := locked_lock_exists cfg w
    rw [hfree] at this; exact absurd this (by simp)

/-- **The checks of a restore.** -/
theorem restore_checks {sameDevice : Bool} {fails : Step → Bool} (hprep : fails .prepare = false)
    (selector : Str) :
    ((∀ document index source target,
        ¬ RestoreAccepted cfg py sameDevice w selector document index source target) ∧
      ∃ e w', (w' = w ∨ w' = lockedWorld cfg w) ∧
        restoreQuarantinedAuth cfg py sameDevice fails selector w = (.error e, w')) ∨
    ∃ document index source target,
      RestoreAccepted cfg py sameDevice w selector document index source target ∧
      restoreQuarantinedAuth cfg py sameDevice fails selector w =
        restoreBody cfg py fails document index source target (lockedWorld cfg w) := by
  unfold restoreQuarantinedAuth
  rcases hroot : ensureRealDirectory w cfg.authDir with e | _
  · left
    exact ⟨fun _ _ _ _ h => absurd h.root (by simp [hroot]), e, w, Or.inl rfl, rfl⟩
  simp only
  rcases lockArchive_cases cfg w with hlock | hlock
  · left
    refine ⟨fun _ _ _ _ h => absurd h.lockable (by simp [hlock]), .os, w, Or.inl rfl, ?_⟩
    exact Act.bind_error (by rw [Act.step_ok hprep, hlock])
  have hgo : ∀ x, (do
      .step fails .prepare .os (lockArchive cfg)
      x : Act World PyError (Path × Path)) w = x (lockedWorld cfg w) :=
    fun x => Act.bind_ok (by rw [Act.step_ok hprep, hlock])
  rw [hgo]
  unfold restoreLocked
  rw [locked_manifest]
  rcases hm : manifest cfg w with e | document
  · left
    refine ⟨fun d _ _ _ h => ?_, e, _, Or.inr rfl, rfl⟩
    have := h.readable
    rw [hm] at this; exact absurd this (by simp)
  simp only
  rcases hsel : restoreSelect cfg py sameDevice (lockedWorld cfg w) document selector with
    e | ⟨index, source, target⟩
  · left
    refine ⟨fun d i s t h => ?_, e, _, Or.inr rfl, rfl⟩
    have h1 := h.readable
    rw [hm, Except.ok.injEq] at h1
    subst h1
    have h2 := h.selected
    rw [hsel] at h2; exact absurd h2 (by simp)
  · right
    exact ⟨document, index, source, target, ⟨hroot, by rw [hlock], hm, hsel⟩, rfl⟩

/-! ### The auth tree after a quarantine -/

/-- **What a quarantine does to the auth tree**: nothing, and then it raises, or it takes exactly its
file into the archive. -/
theorem quarantine_effect (cfg : Config) (py : Py) (w : World) (source : Path)
    (reason movedAt : Str) :
    ((∃ e, (quarantineAuthRecord cfg py true steady source reason movedAt w).1 = .error e) ∧
      ∀ p, cfg.authDir <+: p →
        fileAt (quarantineAuthRecord cfg py true steady source reason movedAt w).2 p = fileAt w p) ∨
    ∃ f target, fileAt w source = some f ∧ cfg.authDir <+: source ∧
      fileAt (quarantineAuthRecord cfg py true steady source reason movedAt w).2
        (cfg.inArchive target) = some f ∧
      ∀ p, cfg.authDir <+: p →
        fileAt (quarantineAuthRecord cfg py true steady source reason movedAt w).2 p =
          if p = source then none else fileAt w p := by
  rcases @quarantine_checks cfg py w true steady rfl source reason movedAt with
    ⟨-, e, w', hw, hrun⟩ | ⟨hacc, document, relative, -, -, hrun⟩
  · left
    rw [hrun]
    refine ⟨⟨e, rfl⟩, fun p hp => ?_⟩
    rcases hw with rfl | rfl
    · rfl
    · exact locked_fileAt cfg w (ne_inArchive hp _)
  right
  obtain ⟨relative, f, -, hsplit, -, hf, hready⟩ := hacc.ready
  have hpre : cfg.authDir <+: source := ⟨relative, hsplit⟩
  -- the file is moved, whether the manifest could be written or not
  have hfiles : ∀ w1, Moved source (cfg.inArchive (archiveNameOf cfg w source)) f
      (lockedWorld cfg w) w1 → fileAt w1 (cfg.inArchive (archiveNameOf cfg w source)) = some f ∧
        ∀ p, cfg.authDir <+: p → fileAt w1 p = if p = source then none else fileAt w p := by
    intro w1 hm
    refine ⟨by rw [hm.files, if_pos rfl], fun p hp => ?_⟩
    rw [hm.files, if_neg (ne_inArchive hp _), locked_fileAt cfg w (ne_inArchive hp _)]
  refine ⟨f, archiveNameOf cfg w source, hf, hpre, ?_⟩
  rw [hrun, quarantineBody, Act.bind_run]
  rcases @transaction_steady cfg py (lockedWorld cfg w) source _ f hready
    (set document (lit "entries") (.arr (entriesOf document ++ [entryOf py _
      (archiveNameOf cfg w source) reason movedAt])))
    "CPA quarantine manifest write failed; credential was restored"
    "CPA quarantine transaction and rollback failed" with ⟨w1, hm, -, hres⟩ | ⟨e, w1, hm, hres, -⟩
  · rw [hres]
    obtain ⟨h1, h2⟩ := hfiles w1 hm
    refine ⟨?_, fun p hp => ?_⟩
    · exact (fileAt_insert_ne w1 hready.target_manifest _).trans h1
    · exact (fileAt_insert_ne w1 (ne_inArchive hp _) _).trans (h2 p hp)
  · rw [hres]
    exact hfiles w1 hm

end Cloudx.Cloud.QuarantineCalls
