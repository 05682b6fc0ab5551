import Cloudx.Shared.ManifestSize
import Cloudx.Cloud.QuarantineRuns
import Cloudx.Local.ArchiveRuns
import Mathlib.Algebra.Order.BigOperators.Group.List

/-! # Manifests that can be read back

Both archives append an entry to their manifest with every file they take, and both refuse to read a
manifest above a limit. From an empty archive, the manifest is at every moment the document that the
last successful call has written, so it is refused exactly when its entries take too many bytes:
a successful call leaves a readable manifest if and only if there was `Room` for its entries. -/

namespace Cloudx.Joint.Manifests

open Cloudx.Lib.Store Cloudx.Lib.Fault
open Cloudx.Python.Text Cloudx.Python.Value Cloudx.Python.Dump
open Cloudx.Shared.ManifestSize

variable {py : Py}

theorem set_entries (schema : Str) (entries entries' : List Json) :
    set (manifestOf schema entries) (lit "entries") (.arr entries') =
      manifestOf schema entries' := by
  have hne : ¬ lit "schema" = lit "entries" := by decide
  simp [manifestOf, Python.Value.set, hne]

theorem get_entries (schema : Str) (entries : List Json) :
    get (manifestOf schema entries) (lit "entries") = .arr entries := by
  have hne : ¬ lit "entries" = lit "schema" := by decide
  rw [manifestOf, get_cons, if_neg hne, get_cons, if_pos rfl]

theorem get_schema (schema : Str) (entries : List Json) :
    get (manifestOf schema entries) (lit "schema") = .str schema := by
  rw [manifestOf, get_cons, if_pos rfl]

theorem has_schema (schema : Str) (entries : List Json) :
    has (manifestOf schema entries) (lit "schema") = true := by
  rw [manifestOf, has, List.lookup_cons_self]
  rfl

/-- Fewer entries take fewer bytes. -/
theorem manifestWidth_eraseIdx (py : Py) (ascii : Bool) (schema : Str) (entries : List Json)
    (i : ℕ) : manifestWidth py ascii schema (entries.eraseIdx i) ≤
      manifestWidth py ascii schema entries := by
  have hsub : (entries.eraseIdx i).Sublist entries := List.eraseIdx_sublist entries i
  have hsum := (hsub.map fun entry => entryWidth py ascii entry + 6).sum_le_sum
    (fun _ _ => Nat.zero_le _)
  unfold manifestWidth listWidth
  by_cases hnil : entries = []
  · simp [hnil]
  · rw [if_neg hnil]
    split_ifs <;> omega

/-! ### The cloud archive -/

namespace Cloud

open Cloudx.Cloud.Disk Cloudx.Cloud.Quarantine Cloudx.Cloud.QuarantineCalls
open Cloudx.Cloud.QuarantineRuns

variable {cfg : Config} {w : World}

/-- The bytes of a manifest with these entries are within the limit of `_manifest`. -/
def Fits (py : Py) (entries : List Json) : Prop :=
  manifestWidth py false manifestSchema entries ≤ maxManifestBytes

/-- The manifest file: none, or a manifest with some entries. -/
def Shaped (cfg : Config) (py : Py) (w : World) : Prop :=
  w.nodes.lookup (cfg.inArchive manifestName) = none ∨
    ∃ entries, w.nodes.lookup (cfg.inArchive manifestName) =
      some (.file (jsonFile py false (manifestOf manifestSchema entries)))

theorem fits_empty (py : Py) : Fits py [] := by
  have : width (quote false manifestSchema) = 26 := by decide
  unfold Fits manifestWidth listWidth
  rw [if_pos rfl, this]
  decide

/-- What is read is what was written. -/
theorem Shaped.document (h : Shaped cfg py w) (hflat : cfg.inArchive manifestName ∉ w.dirs)
    {document : Dict} (hm : manifest cfg w = .ok document) :
    document = manifestOf manifestSchema (savedEntries cfg w) := by
  rcases h with hnone | ⟨entries, hl⟩
  · have hex : pathExists w (cfg.inArchive manifestName) = false := by
      rw [pathExists, hnone, decide_eq_false hflat]; rfl
    rw [manifest, hex] at hm
    rw [← Except.ok.inj hm, savedEntries, hnone]
    rfl
  · have hex : pathExists w (cfg.inArchive manifestName) = true := by
      rw [pathExists, hl, Bool.or_true]
    have hsaved : savedEntries cfg w = entries := by
      rw [savedEntries, hl]
      show entriesOf (manifestOf manifestSchema entries) = entries
      rw [entriesOf, get_entries]
    rw [manifest, hex, hl] at hm
    simp only [Bool.not_true, Bool.false_eq_true, if_false, jsonFile, get_entries, has_schema,
      if_true] at hm
    split_ifs at hm
    rw [← Except.ok.inj hm, hsaved]

/-- **The manifest is read exactly when its entries fit.** -/
theorem Shaped.read_iff (h : Shaped cfg py w) (hflat : cfg.inArchive manifestName ∉ w.dirs) :
    (∃ document, manifest cfg w = .ok document) ↔ Fits py (savedEntries cfg w) := by
  rcases h with hnone | ⟨entries, hl⟩
  · have hex : pathExists w (cfg.inArchive manifestName) = false := by
      rw [pathExists, hnone, decide_eq_false hflat]; rfl
    rw [manifest, hex, savedEntries, hnone]
    exact iff_of_true ⟨_, rfl⟩ (fits_empty py)
  · have hex : pathExists w (cfg.inArchive manifestName) = true := by
      rw [pathExists, hl, Bool.or_true]
    have hsaved : savedEntries cfg w = entries := by
      rw [savedEntries, hl]
      show entriesOf (manifestOf manifestSchema entries) = entries
      rw [entriesOf, get_entries]
    rw [manifest, hex, hl, hsaved, Fits, ← manifest_width]
    simp only [Bool.not_true, Bool.false_eq_true, if_false]
    by_cases hsize : maxManifestBytes <
        (jsonFile py false (manifestOf manifestSchema entries)).bytes.length
    · rw [if_pos hsize]
      exact iff_of_false (by simp) (by omega)
    · refine iff_of_true ?_ (by omega)
      rw [if_neg hsize]
      simp only [jsonFile, get_entries]
      exact ⟨_, rfl⟩

/-- There is room for the entry of this file. -/
def Room (cfg : Config) (py : Py) (w : World) (source : Path) (reason movedAt : Str) : Prop :=
  Fits py (savedEntries cfg w ++ [entryOf py (source.drop cfg.authDir.length)
    (archiveNameOf cfg w source) reason movedAt])

/-- The manifest that a successful call has written. -/
theorem shaped_written (cfg : Config) (py : Py) (entries : List Json) (w1 : World) :
    Shaped cfg py (written py (cfg.inArchive manifestName)
        (manifestOf manifestSchema entries) w1) ∧
      savedEntries cfg (written py (cfg.inArchive manifestName)
        (manifestOf manifestSchema entries) w1) = entries := by
  refine ⟨Or.inr ⟨entries, Finmap.lookup_insert _⟩, ?_⟩
  rw [← set_entries manifestSchema entries entries]
  exact savedEntries_written py (manifestOf manifestSchema entries) entries w1

/-- The archive name that a successful quarantine returns. -/
theorem quarantine_name {source : Path} {reason movedAt : Str} {target : FileName} {w' : World}
    (h : quarantineAuthRecord cfg py true steady source reason movedAt w = (.ok target, w')) :
    target = archiveNameOf cfg w source := by
  rcases @quarantine_checks cfg py w true steady rfl source reason movedAt with
    ⟨-, e, w2, -, hrun⟩ | ⟨-, document, relative, -, -, hrun⟩
  · rw [hrun] at h
    exact absurd h (by simp)
  · rw [hrun, quarantineBody, Act.bind_run] at h
    split at h
    · have hfst := congrArg Prod.fst h
      exact (Except.ok.inj hfst).symm
    · exact absurd (congrArg Prod.fst h) (by simp)

/-- **What a successful quarantine leaves.** -/
theorem quarantine_entries (hsh : Shaped cfg py w)
    (hflat : cfg.inArchive manifestName ∉ w.dirs) {source : Path} {reason movedAt : Str}
    {target : FileName} {w' : World}
    (h : quarantineAuthRecord cfg py true steady source reason movedAt w = (.ok target, w')) :
    Shaped cfg py w' ∧ savedEntries cfg w' = savedEntries cfg w ++
      [entryOf py (source.drop cfg.authDir.length) (archiveNameOf cfg w source) reason movedAt] := by
  have hname := quarantine_name h
  obtain ⟨relative, f, document, w1, rfl, -, -, hm, -, -, -, rfl⟩ := quarantine_ok h
  have hdoc := hsh.document hflat hm
  have hent : entriesOf document = savedEntries cfg w := (manifest_entries hm).2
  rw [hent, hdoc, set_entries, List.drop_left, ← hname]
  exact shaped_written cfg py _ w1

/-- **What a successful restore leaves.** -/
theorem restore_entries (hsh : Shaped cfg py w)
    (hflat : cfg.inArchive manifestName ∉ w.dirs) {selector : Str} {found : Path × Path}
    {w' : World}
    (h : restoreQuarantinedAuth cfg py true steady selector w = (.ok found, w')) :
    Shaped cfg py w' ∧ Fits py (savedEntries cfg w) ∧
      ∃ i, savedEntries cfg w' = (savedEntries cfg w).eraseIdx i := by
  obtain ⟨source, target⟩ := found
  obtain ⟨document, index, hacc⟩ := restore_ok h
  have hm := hacc.readable
  have hdoc := hsh.document hflat hm
  have hent : entriesOf document = savedEntries cfg w := (manifest_entries hm).2
  have hfits := (hsh.read_iff hflat).mp ⟨document, hm⟩
  rcases restore_run hacc with ⟨f, w1, -, -, -, hrun⟩ | ⟨-, e, w1, hrun⟩
  · obtain rfl : _ = w' := congrArg Prod.snd (hrun.symm.trans h)
    rw [hent, hdoc, set_entries]
    obtain ⟨hshaped, hsaved⟩ := shaped_written cfg py ((savedEntries cfg w).eraseIdx index) w1
    exact ⟨hshaped, hfits, index, hsaved⟩
  · rw [hrun] at h
    exact absurd (congrArg Prod.fst h) (by simp)

/-- The manifest of every run is one that a call has written. -/
theorem shaped {log : List Held} (h : Reach cfg py w log) : Shaped cfg py w := by
  induction h with
  | start h => exact Or.inl (Finmap.lookup_eq_none.mpr (h manifestName).1)
  | quarantine hw _ h ih => exact (quarantine_entries ih (hw.inv.flat manifestName) h).1
  | restore hw h ih => exact (restore_entries ih (hw.inv.flat manifestName) h).1
  | outside _ h ih =>
    unfold Shaped
    rw [(h _ (inArchive_below manifestName)).1]
    exact ih

/-- The runs in which every quarantine finds room for its entry. -/
inductive Roomy (cfg : Config) (py : Py) : World → List Held → Prop where
  | start {w : World} (h : EmptyArchive cfg w) : Roomy cfg py w []
  | quarantine {w w' : World} {log : List Held} {source : Path} {f : File} {reason movedAt : Str}
      {target : FileName} (hw : Roomy cfg py w log) (hf : fileAt w source = some f)
      (hroom : Room cfg py w source reason movedAt)
      (h : quarantineAuthRecord cfg py true steady source reason movedAt w = (.ok target, w')) :
      Roomy cfg py w' (log ++ [⟨source, target, f⟩])
  | restore {w w' : World} {log : List Held} {selector : Str} {source target : Path}
      (hw : Roomy cfg py w log)
      (h : restoreQuarantinedAuth cfg py true steady selector w = (.ok (source, target), w')) :
      Roomy cfg py w' (log.filter fun g => cfg.inArchive g.name ≠ source)
  | outside {w w' : World} {log : List Held} (hw : Roomy cfg py w log)
      (h : OutsideArchive cfg w w') : Roomy cfg py w' log

theorem Roomy.reach {log : List Held} (h : Roomy cfg py w log) : Reach cfg py w log := by
  induction h with
  | start h => exact .start h
  | quarantine _ hf _ h ih => exact ih.quarantine hf h
  | restore _ h ih => exact ih.restore h
  | outside _ h ih => exact ih.outside h

/-- A smaller manifest fits too. -/
theorem Fits.eraseIdx {entries : List Json} (h : Fits py entries) (i : ℕ) :
    Fits py (entries.eraseIdx i) :=
  (manifestWidth_eraseIdx py false manifestSchema entries i).trans h

/-- **In a run with room for every entry the manifest always fits.** -/
theorem Roomy.fits {log : List Held} (h : Roomy cfg py w log) : Fits py (savedEntries cfg w) := by
  induction h with
  | start h =>
    rw [savedEntries, Finmap.lookup_eq_none.mpr (h manifestName).1]
    exact fits_empty py
  | quarantine hw _ hroom h ih =>
    rw [(quarantine_entries (shaped hw.reach) (hw.reach.inv.flat manifestName) h).2]
    exact hroom
  | restore hw h ih =>
    obtain ⟨-, -, i, hsaved⟩ :=
      restore_entries (shaped hw.reach) (hw.reach.inv.flat manifestName) h
    rw [hsaved]
    exact ih.eraseIdx i
  | outside _ h ih =>
    rw [savedEntries_congr (h _ (inArchive_below manifestName)).1]
    exact ih

/-- The runs whose manifests are all read. -/
theorem Roomy.read {log : List Held} (h : Roomy cfg py w log) :
    ∃ document, manifest cfg w = .ok document :=
  ((shaped h.reach).read_iff (h.reach.inv.flat manifestName)).mpr h.fits

end Cloud

/-! ### The local archive -/

namespace Local

open Cloudx.Local.Archive Cloudx.Local.ArchiveMoves Cloudx.Local.ArchiveRuns

variable {w : World} {sameDevice : Bool}

/-- The bytes of a manifest with these entries are within the limit of `_manifest`. -/
def Fits (py : Py) (entries : List Json) : Prop :=
  manifestWidth py true manifestSchema entries ≤ maxManifestBytes

/-- The manifest file: none, or a manifest with some entries. -/
def Shaped (py : Py) (archive : Dir FileName File) : Prop :=
  archive.lookup manifestName = none ∨ ∃ entries,
    archive.lookup manifestName = some (jsonFile py true (manifestOf manifestSchema entries))

theorem fits_empty (py : Py) : Fits py [] := by
  have : width (quote true manifestSchema) = 29 := by decide
  unfold Fits manifestWidth listWidth
  rw [if_pos rfl, this]
  decide

theorem savedEntries_shaped {archive : Dir FileName File} {entries : List Json}
    (h : archive.lookup manifestName =
      some (jsonFile py true (manifestOf manifestSchema entries))) :
    savedEntries archive = entries := by
  rw [savedEntries, h]
  show entriesOf (manifestOf manifestSchema entries) = entries
  rw [entriesOf, get_entries]

/-- What is read is what was written. -/
theorem Shaped.document {archive : Dir FileName File} (h : Shaped py archive) {document : Dict}
    (hm : manifest archive = .ok document) :
    document = manifestOf manifestSchema (savedEntries archive) := by
  rcases h with hnone | ⟨entries, hl⟩
  · rw [manifest, hnone] at hm
    rw [← Except.ok.inj hm, savedEntries, hnone]
    rfl
  · rw [manifest, hl] at hm
    simp only [jsonFile, get_entries, get_schema, if_true] at hm
    split_ifs at hm
    rw [← Except.ok.inj hm, savedEntries_shaped hl]

/-- **The manifest is read exactly when its entries fit.** -/
theorem Shaped.read_iff {archive : Dir FileName File} (h : Shaped py archive) :
    (∃ document, manifest archive = .ok document) ↔ Fits py (savedEntries archive) := by
  rcases h with hnone | ⟨entries, hl⟩
  · rw [manifest, savedEntries, hnone]
    exact iff_of_true ⟨_, rfl⟩ (fits_empty py)
  · rw [savedEntries_shaped hl, manifest, hl, Fits, ← manifest_width]
    simp only
    by_cases hsize : maxManifestBytes <
        (jsonFile py true (manifestOf manifestSchema entries)).bytes.length
    · rw [if_pos hsize]
      exact iff_of_false (by simp) (by omega)
    · refine iff_of_true ?_ (by omega)
      rw [if_neg hsize]
      simp only [jsonFile, get_entries, get_schema, if_true]
      exact ⟨_, rfl⟩

/-- There is room for the entries of what this call selects. -/
def Room (py : Py) (w : World) (candidates : List ArchiveCandidate) (movedAt : Str) : Prop :=
  ∀ selected, select py w.locked candidates = .ok selected →
    Fits py (savedEntries w.archive ++ entriesFor selected movedAt)

theorem shaped_locked : Shaped py w.locked.archive ↔ Shaped py w.archive := by
  unfold Shaped
  rw [locked_lookup w (by decide)]

/-- The manifest that a call has written. -/
theorem shaped_written (py : Py) (archive : Dir FileName File) (entries : List Json) :
    Shaped py (archive.insert manifestName (jsonFile py true (manifestOf manifestSchema entries))) ∧
      savedEntries (archive.insert manifestName
        (jsonFile py true (manifestOf manifestSchema entries))) = entries :=
  ⟨Or.inr ⟨entries, Finmap.lookup_insert _⟩, savedEntries_shaped (Finmap.lookup_insert _)⟩

/-- **What a call of `archive_candidates` leaves**: the manifest it found, unless it has selected
something, and then the entries of that besides. -/
theorem archive_entries (sameDevice : Bool) (hsh : Shaped py w.archive)
    {candidates : List ArchiveCandidate}
    (hb : Batch candidates) (movedAt : Str) :
    Shaped py (archiveCandidates py sameDevice steady candidates movedAt w).2.archive ∧
      ((savedEntries (archiveCandidates py sameDevice steady candidates movedAt w).2.archive =
          savedEntries w.archive ∧
        ∀ count, (archiveCandidates py sameDevice steady candidates movedAt w).1 = .ok count →
          candidates = []) ∨
      ∃ selected, select py w.locked candidates = .ok selected ∧
        savedEntries (archiveCandidates py sameDevice steady candidates movedAt w).2.archive =
          savedEntries w.archive ++ entriesFor selected movedAt) := by
  rcases archive_cases py sameDevice hb movedAt w with ⟨hrun, hnil⟩ | ⟨e, hrun⟩ |
    ⟨document, selected, hm, hsel, hrun⟩
  · rw [hrun]
    exact ⟨hsh, Or.inl ⟨rfl, fun _ _ => hnil⟩⟩
  · rw [hrun]
    exact ⟨shaped_locked.mpr hsh, Or.inl ⟨locked_entries w, fun count h => absurd h (by simp)⟩⟩
  · have hdoc := (shaped_locked.mpr hsh).document hm
    rw [hrun, archived, manifest_entries hm, hdoc, set_entries, locked_entries]
    obtain ⟨hshaped, hsaved⟩ := shaped_written py (moveAll selected w.locked).archive
      (savedEntries w.archive ++ entriesFor selected movedAt)
    exact ⟨hshaped, Or.inr ⟨selected, hsel, hsaved⟩⟩

/-- **What a call of `restore_run` leaves**: the manifest it found, or one entry less. -/
theorem restore_entries (sameDevice : Bool) (hsh : Shaped py w.archive)
    (selector confirm : Str) :
    Shaped py (restoreRun py sameDevice steady selector confirm w).2.archive ∧
      (savedEntries (restoreRun py sameDevice steady selector confirm w).2.archive =
          savedEntries w.archive ∧
        (restoreRun py sameDevice steady selector confirm w).1 ≠ .ok () ∨
      Fits py (savedEntries w.archive) ∧
        ∃ i, savedEntries (restoreRun py sameDevice steady selector confirm w).2.archive =
          (savedEntries w.archive).eraseIdx i) := by
  rcases restore_cases py sameDevice selector confirm w with ⟨e, hrun | hrun⟩ |
    ⟨document, index, source, target, f, hm, hsel, hf, hrun⟩
  · rw [hrun]
    exact ⟨hsh, Or.inl ⟨rfl, by simp⟩⟩
  · rw [hrun]
    exact ⟨shaped_locked.mpr hsh, Or.inl ⟨locked_entries w, by simp⟩⟩
  · have hshl := shaped_locked.mpr hsh
    have hdoc := hshl.document hm
    have hfits := hshl.read_iff.mp ⟨document, hm⟩
    rw [locked_entries] at hfits
    rw [hrun, restored, manifest_entries hm, hdoc, set_entries, locked_entries]
    obtain ⟨hshaped, hsaved⟩ := shaped_written py (w.locked.archive.erase source)
      ((savedEntries w.archive).eraseIdx index)
    exact ⟨hshaped, Or.inr ⟨hfits, index, hsaved⟩⟩

/-- The states a run reaches from an empty archive, when every call of `archive_candidates` meets
`P`. -/
inductive Run (py : Py) (sameDevice : Bool) (P : World → List ArchiveCandidate → Str → Prop) :
    World → Prop where
  | start (auth : Dir FileName File) (receipts : Finset FileName) :
    Run py sameDevice P ⟨auth, ∅, none, receipts⟩
  | archive {w : World} {candidates : List ArchiveCandidate} (movedAt : Str) :
    Run py sameDevice P w → Batch candidates → P w candidates movedAt →
      Run py sameDevice P (archiveCandidates py sameDevice steady candidates movedAt w).2
  | restore {w : World} (selector confirm : Str) : Run py sameDevice P w →
      Run py sameDevice P (restoreRun py sameDevice steady selector confirm w).2
  | rewrite {w : World} (auth : Dir FileName File) (receipts : Finset FileName) :
    Run py sameDevice P w → Run py sameDevice P { w with auth := auth, receipts := receipts }

/-- The manifest of every run is one that a call has written. -/
theorem shaped {P : World → List ArchiveCandidate → Str → Prop} (h : Run py sameDevice P w) :
    Shaped py w.archive := by
  induction h with
  | start auth receipts => exact Or.inl (Finmap.lookup_empty _)
  | archive movedAt _ hb _ ih => exact (archive_entries _ ih hb movedAt).1
  | restore selector confirm _ ih => exact (restore_entries _ ih selector confirm).1
  | rewrite _ _ _ ih => exact ih

/-- **In a run with room for every batch the manifest always fits.** -/
theorem fits (h : Run py sameDevice (Room py) w) : Fits py (savedEntries w.archive) := by
  induction h with
  | start auth receipts => exact fits_empty py
  | archive movedAt hw hb hroom ih =>
    rcases (archive_entries _ (shaped hw) hb movedAt).2 with ⟨hsame, -⟩ | ⟨selected, hsel, hsaved⟩
    · rw [hsame]
      exact ih
    · rw [hsaved]
      exact hroom selected hsel
  | restore selector confirm hw ih =>
    rcases (restore_entries _ (shaped hw) selector confirm).2 with ⟨hsame, -⟩ | ⟨-, i, hsaved⟩
    · rw [hsame]
      exact ih
    · rw [hsaved]
      exact (manifestWidth_eraseIdx py true manifestSchema _ i).trans ih
  | rewrite _ _ _ ih => exact ih

end Local

/-! ### Both archives -/

open Cloudx.Cloud.Quarantine in
/-- **A successful call leaves a readable manifest exactly when there was room for its entries.** In
every run with room the next `_manifest` call returns, in the cloud and in the local archive; a
successful restore always leaves a readable manifest; and a successful call that adds entries leaves
one if and only if they fit. -/
theorem manifests_readable (cfg : Config) (py : Py) (sameDevice : Bool) :
    ((∀ w log, Cloud.Roomy cfg py w log → ∃ document, manifest cfg w = .ok document) ∧
      (∀ w log source reason movedAt target w', Cloudx.Cloud.QuarantineRuns.Reach cfg py w log →
        quarantineAuthRecord cfg py true steady source reason movedAt w = (.ok target, w') →
        ((∃ document, manifest cfg w' = .ok document) ↔
          Cloud.Room cfg py w source reason movedAt)) ∧
      ∀ w log selector found w', Cloudx.Cloud.QuarantineRuns.Reach cfg py w log →
        restoreQuarantinedAuth cfg py true steady selector w = (.ok found, w') →
        ∃ document, manifest cfg w' = .ok document) ∧
    (∀ w, Local.Run py sameDevice (Local.Room py) w →
      ∃ document, Cloudx.Local.Archive.manifest w.archive = .ok document) ∧
    (∀ w candidates movedAt count, Local.Run py sameDevice (fun _ _ _ => True) w →
      Cloudx.Local.ArchiveMoves.Batch candidates → candidates ≠ [] →
      (Cloudx.Local.Archive.archiveCandidates py sameDevice steady candidates movedAt w).1 =
        .ok count →
      ((∃ document, Cloudx.Local.Archive.manifest (Cloudx.Local.Archive.archiveCandidates py
          sameDevice steady candidates movedAt w).2.archive = .ok document) ↔
        Local.Room py w candidates movedAt)) ∧
    ∀ w selector confirm, Local.Run py sameDevice (fun _ _ _ => True) w →
      (Cloudx.Local.Archive.restoreRun py sameDevice steady selector confirm w).1 = .ok () →
      ∃ document, Cloudx.Local.Archive.manifest (Cloudx.Local.Archive.restoreRun py sameDevice
        steady selector confirm w).2.archive = .ok document := by
  refine ⟨⟨fun w log h => h.read, ?_, ?_⟩, ?_, ?_, ?_⟩
  · intro w log source reason movedAt target w' hreach h
    obtain ⟨hsh, hsaved⟩ := Cloud.quarantine_entries (Cloud.shaped hreach)
      (hreach.inv.flat manifestName) h
    obtain ⟨f, hf⟩ : ∃ f, Cloudx.Cloud.Disk.fileAt w source = some f := by
      obtain ⟨_, f, _, _, -, -, hf, -⟩ := Cloudx.Cloud.QuarantineRuns.quarantine_ok h
      exact ⟨f, hf⟩
    rw [hsh.read_iff ((hreach.quarantine hf h).inv.flat manifestName), hsaved]
    rfl
  · rintro w log selector ⟨source, target⟩ w' hreach h
    obtain ⟨hsh, hfits, i, hsaved⟩ := Cloud.restore_entries (Cloud.shaped hreach)
      (hreach.inv.flat manifestName) h
    rw [hsh.read_iff ((hreach.restore h).inv.flat manifestName), hsaved]
    exact hfits.eraseIdx i
  · intro w h
    exact (Local.shaped h).read_iff.mpr (Local.fits h)
  · intro w candidates movedAt count h hb hne hok
    obtain ⟨hsh, hentries⟩ := Local.archive_entries sameDevice (Local.shaped h) hb movedAt
    rw [hsh.read_iff]
    rcases hentries with ⟨-, hnil⟩ | ⟨selected, hsel, hsaved⟩
    · exact absurd (hnil count hok) hne
    · rw [hsaved]
      constructor
      · intro hfits selected' hsel'
        obtain rfl := Except.ok.inj (hsel.symm.trans hsel')
        exact hfits
      · exact fun hroom => hroom selected hsel
  · intro w selector confirm h hok
    obtain ⟨hsh, hentries⟩ := Local.restore_entries sameDevice (Local.shaped h) selector
      confirm
    rw [hsh.read_iff]
    rcases hentries with ⟨-, hno⟩ | ⟨hfits, i, hsaved⟩
    · exact absurd hok hno
    · rw [hsaved]
      exact (manifestWidth_eraseIdx py true _ _ i).trans hfits

open Cloudx.Cloud.Quarantine Cloudx.Cloud.QuarantineRuns in
/-- A quarantined file leaves a readable manifest. -/
theorem manifests_readable_once : ∃ document, manifest sampleConfig onceDisk = .ok document := by
  have hstart : Cloud.Roomy sampleConfig onePy oneDisk [] := by
    refine .start fun n => ⟨fun hn => ?_, fun hn => ?_⟩
    · rw [oneDisk, Finmap.mem_singleton] at hn
      exact @Cloudx.Cloud.QuarantineCalls.ne_inArchive sampleConfig samplePath (by decide) n hn.symm
    · simp [oneDisk, Config.inArchive, sampleConfig] at hn
  have hrun : quarantineAuthRecord sampleConfig onePy true steady samplePath [] [] oneDisk =
      (.ok aJson, onceDisk) := Prod.ext (by decide +kernel) (by rw [onceDisk])
  have hroom : Cloud.Room sampleConfig onePy oneDisk samplePath [] [] := by
    unfold Cloud.Room Cloud.Fits
    decide +kernel
  exact (manifests_readable sampleConfig onePy true).1.1 onceDisk _ (hstart.quarantine
    (rfl : Cloudx.Cloud.Disk.fileAt oneDisk samplePath = some (textFile "one")) hroom hrun)

open Cloudx.Cloud.Quarantine Cloudx.Cloud.QuarantineRuns in
/-- **A run can write a manifest that is not read again**, whatever the interpreter. -/
theorem manifest_outgrows_reader : ¬ ∃ py : Py, ∀ cfg w log, Reach cfg py w log →
    ∃ document, manifest cfg w = .ok document := by
  rintro ⟨py, hall⟩
  refine not_all_fit py fun {new w' log g} _ _ _ hreach => ?_
  obtain ⟨document, hm⟩ := hall sampleConfig w' _ hreach
  exact manifest_fits hm

end Cloudx.Joint.Manifests
