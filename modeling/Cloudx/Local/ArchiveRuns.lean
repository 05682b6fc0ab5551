import Cloudx.Local.ArchiveMoves

/-! # Runs of the local archive

What any sequence of `archive_candidates` and `restore_run` calls keeps, when no step of them fails.

The invariant is that the manifest entries are a catalogue of the archived credentials (`Inv`):
every credential in the archive has exactly one entry, and the entry has its name and its digest.
`restore_run` always keeps it. `archive_candidates` keeps it, and loses no credential, exactly when
the batch is separate in the state it meets (`archive_kept`, `archive_not_sound`): all targets are chosen
before the first move, so a file can be given the number that another file of the batch already has
as its name, and the later move overwrites the earlier one. -/

namespace Cloudx.Local.ArchiveRuns

open Cloudx.Lib.Store Cloudx.Lib.Fault
open Cloudx.Python.Text Cloudx.Python.Value Cloudx.Python.Dump Cloudx.Local.Archive Cloudx.Local.ArchiveMoves

variable {py : Py} {sameDevice : Bool} {w : World}

/-! ### What a call does when nothing fails -/

/-- The directories after a call that archived `selected`. -/
def archived (py : Py) (movedAt : Str) (document : Dict)
    (selected : List (ArchiveCandidate × FileName)) (w : World) : World :=
  { moveAll selected w with
    archive := (moveAll selected w).archive.insert manifestName (jsonFile py true
      (set document (lit "entries") (.arr (entriesOf document ++ entriesFor selected movedAt))))
    temporary := none
    receipts := w.receipts \ (consumedReceipts selected (selected.map Prod.snd)).toFinset }

/-- A call that gets through its checks archives its selection. -/
theorem archive_ok {candidates : List ArchiveCandidate} {movedAt : Str} {document : Dict}
    {selected : List (ArchiveCandidate × FileName)} (hb : Batch candidates) (hne : candidates ≠ [])
    (hm : manifest w.locked.archive = .ok document)
    (hsel : select py w.locked candidates = .ok selected) :
    archiveCandidates py true steady candidates movedAt w =
      (.ok selected.length, archived py movedAt document selected w.locked) := by
  have hbody := @archiveBody_ok py w.locked steady movedAt document selected
    (select_sources hb hsel) (fun _ _ => ⟨rfl, rfl⟩) (fun _ => rfl) rfl rfl
  have hrest := (moveAll_rest selected w.locked).2
  have hmoved : (movedOf selected).map Prod.snd = selected.map Prod.snd := by
    rw [movedOf, List.map_map]; rfl
  rw [archiveCandidates_run hne rfl]
  simp only [archiveLocked, Bool.not_true, Bool.false_eq_true, if_false, hm, hsel, hbody]
  rw [hmoved, hrest]
  simp [archived, movedOf]

/-- **What `archive_candidates` can do when no step fails.** -/
theorem archive_cases (py : Py) (sameDevice : Bool) {candidates : List ArchiveCandidate}
    (hb : Batch candidates) (movedAt : Str) (w : World) :
    (archiveCandidates py sameDevice steady candidates movedAt w = (.ok 0, w) ∧ candidates = []) ∨
    (∃ e, archiveCandidates py sameDevice steady candidates movedAt w = (.error e, w.locked)) ∨
    ∃ document selected, manifest w.locked.archive = .ok document ∧
      select py w.locked candidates = .ok selected ∧
      archiveCandidates py sameDevice steady candidates movedAt w =
        (.ok selected.length, archived py movedAt document selected w.locked) := by
  by_cases hnil : candidates = []
  · left; simp [archiveCandidates, hnil]
  right
  rcases sameDevice with _ | _
  · left; exact ⟨_, by rw [archiveCandidates_run hnil rfl]; rfl⟩
  rcases hm : manifest w.locked.archive with e | document
  · left; exact ⟨e, by rw [archiveCandidates_run hnil rfl]; simp [archiveLocked, hm]⟩
  rcases hsel : select py w.locked candidates with e | selected
  · left; exact ⟨e, by rw [archiveCandidates_run hnil rfl]; simp [archiveLocked, hm, hsel]⟩
  right
  exact ⟨document, selected, rfl, rfl, archive_ok hb hnil hm hsel⟩

/-- The directories after a call that restored `source`, with the content `f`. -/
def restored (py : Py) (document : Dict) (index : ℕ) (source target : FileName) (f : File)
    (w : World) : World :=
  { w with
    auth := w.auth.insert target f
    archive := (w.archive.erase source).insert manifestName (jsonFile py true
      (set document (lit "entries") (.arr ((entriesOf document).eraseIdx index))))
    temporary := none }

/-- **What `restore_run` can do when no step fails.** -/
theorem restore_cases (py : Py) (sameDevice : Bool) (selector confirm : Str) (w : World) :
    (∃ e, restoreRun py sameDevice steady selector confirm w = (.error e, w) ∨
      restoreRun py sameDevice steady selector confirm w = (.error e, w.locked)) ∨
    ∃ document index source target f, manifest w.locked.archive = .ok document ∧
      restoreSelect py w.locked document selector = .ok (index, source, target) ∧
      w.locked.archive.lookup source = some f ∧
      restoreRun py sameDevice steady selector confirm w =
        (.ok (), restored py document index source target f w.locked) := by
  by_cases hc : confirm ≠ selector ∨ pathName selector ≠ selector
  · left; exact ⟨_, Or.inl (by rw [restoreRun, if_pos hc]; rfl)⟩
  rw [not_or, not_not, not_not] at hc
  obtain ⟨rfl, hname⟩ := hc
  rw [restoreRun_run hname rfl]
  unfold restoreLocked
  rcases hm : manifest w.locked.archive with e | document
  · left; exact ⟨e, by simp⟩
  rcases hsel : restoreSelect py w.locked document confirm with e | ⟨index, source, target⟩
  · left; exact ⟨e, by simp [hsel]⟩
  rcases sameDevice with _ | _
  · left; exact ⟨_, Or.inr (by simp only [hsel]; rfl)⟩
  right
  obtain ⟨-, -, -, -, hmem, -⟩ := restoreSelect_spec hsel
  obtain ⟨f, hf⟩ := lookup_of_mem hmem
  refine ⟨document, index, source, target, f, rfl, hsel, hf, ?_⟩
  simp only [hsel, Bool.not_true, Bool.false_eq_true, if_false,
    restoreBody_ok hf rfl rfl (fun _ => rfl : ∀ s, steady (RestoreStep.write s) = false)]
  rfl

/-! ### The invariant -/

/-- The manifest entries are a catalogue of the archived credentials. -/
def Inv (py : Py) (w : World) : Prop :=
  Catalogue (Describes py) (fun n => (credentials w.archive).lookup n) (savedEntries w.archive)

/-- The `archiveName` values of the manifest entries. -/
def archiveNames (w : World) : List Json :=
  (savedEntries w.archive).map fun e => get (asDict e) (lit "archiveName")

/-- The archive and its manifest agree: the archive names differ, each entry has its file with the
digest it records, and each `.json` file but the manifest has exactly one entry. -/
structure Sound (py : Py) (w : World) : Prop where
  distinct : (archiveNames w).Nodup
  present : ∀ e ∈ savedEntries w.archive, ∃ n f,
    get (asDict e) (lit "archiveName") = .str n.text ∧ w.archive.lookup n = some f ∧
      get (asDict e) (lit "authSha256") = .str (py.sha256 f.bytes)
  listed : ∀ n ∈ w.archive, n ≠ manifestName → endsWith n.text (lit ".json") →
    (archiveNames w).count (.str n.text) = 1

/-- The credential bytes of the two directories, with multiplicity. -/
def held (w : World) : Multiset Bytes :=
  (contents w.auth + contents (credentials w.archive)).map File.bytes

theorem text_injective : Function.Injective fun n : FileName => Json.str n.text := by
  rintro ⟨a, ha⟩ ⟨b, hb⟩ h
  simp only [Json.str.injEq] at h
  subst h; rfl

theorem Inv.sound (h : Inv py w) : Sound py w := by
  obtain ⟨hnd, hone⟩ := h.unique (fun e => get (asDict e) (lit "archiveName"))
    (fun n => Json.str n.text) text_injective (fun e n b hR => hR.1)
  refine ⟨hnd, fun e he => ?_, fun n hn hm hj => ?_⟩
  · obtain ⟨n, f, hf, h1, h2⟩ := h.exists_of_mem he
    obtain ⟨hl, hm, -⟩ := mem_credentials.mp (mem_of_lookup hf)
    exact ⟨n, f, h1, by rwa [lookup_credentials hm hl] at hf, h2⟩
  · exact hone n fun hnone => Finmap.lookup_eq_none.mp hnone
      (mem_credentials.mpr ⟨json_ne_lock hj, hm, hn⟩)

theorem inv_locked : Inv py w.locked ↔ Inv py w := by
  rw [Inv, Inv, locked_credentials, locked_entries]

theorem held_locked (w : World) : held w.locked = held w := by
  rw [held, held, locked_auth, locked_credentials]

theorem inv_archived {candidates : List ArchiveCandidate} {movedAt : Str} {document : Dict}
    {selected : List (ArchiveCandidate × FileName)} (hb : Batch candidates)
    (hsep : Separate py w candidates) (hm : manifest w.archive = .ok document)
    (hsel : select py w candidates = .ok selected) (h : Inv py w) :
    Inv py (archived py movedAt document selected w) := by
  have ht := select_targets hb hsel hsep
  have hc := catalogue_moveAll py movedAt selected w _ (select_sources hb hsel) ht
    (fun x hx => select_eligible hsel hx) h
  unfold Inv archived
  rw [credentials_insert_reserved (Or.inl rfl), savedEntries_insert, manifest_entries hm]
  exact hc

theorem held_archived {candidates : List ArchiveCandidate} {movedAt : Str} {document : Dict}
    {selected : List (ArchiveCandidate × FileName)} (hb : Batch candidates)
    (hsep : Separate py w candidates) (hsel : select py w candidates = .ok selected) :
    held (archived py movedAt document selected w) = held w ∧
      ∀ n f, (credentials w.archive).lookup n = some f →
        (credentials (archived py movedAt document selected w).archive).lookup n = some f := by
  have hs := select_sources hb hsel
  have ht := select_targets hb hsel hsep
  unfold held archived
  rw [credentials_insert_reserved (Or.inl rfl)]
  refine ⟨congrArg _ (contents_moveAll selected w hs ht), fun n f hf => ?_⟩
  obtain ⟨hl, hm, hmem⟩ := mem_credentials.mp (mem_of_lookup hf)
  have hn : n ∉ selected.map Prod.snd := by
    intro hn
    obtain ⟨x, hx, rfl⟩ := List.mem_map.mp hn
    exact ht.free x hx hmem
  rw [lookup_credentials hm hl, (moveAll_archive selected w hs ht.nodup).2 n hn,
    ← lookup_credentials hm hl, hf]

/-- Two candidates of a batch with one target leave two entries with one name. -/
theorem not_sound_archived {candidates : List ArchiveCandidate} {movedAt : Str} {document : Dict}
    {selected : List (ArchiveCandidate × FileName)} (hb : Batch candidates)
    (hsep : ¬ Separate py w candidates) (hsel : select py w candidates = .ok selected) :
    ¬ Sound py (archived py movedAt document selected w) := by
  intro h
  refine hsep ((targets_nodup_iff hb hsel).mp ?_)
  have hnd := h.distinct
  unfold archiveNames archived at hnd
  rw [savedEntries_insert, List.map_append] at hnd
  have hnew := hnd.of_append_right
  have hmap : (entriesFor selected movedAt).map (fun e => get (asDict e) (lit "archiveName")) =
      (selected.map Prod.snd).map fun n => Json.str n.text := by
    rw [entriesFor, List.map_map, List.map_map]; rfl
  rw [hmap] at hnew
  exact hnew.of_map _

theorem inv_restored {document : Dict} {selector : Str} {index : ℕ} {source target : FileName}
    {f : File} (hm : manifest w.archive = .ok document)
    (hsel : restoreSelect py w document selector = .ok (index, source, target))
    (hf : w.archive.lookup source = some f) (h : Inv py w) :
    Inv py (restored py document index source target f w) ∧
      held (restored py document index source target f w) = held w := by
  obtain ⟨entry, hat, hname, -, -, htarget⟩ := restoreSelect_spec hsel
  rw [manifest_entries hm] at hat
  obtain ⟨a, b, hb, ⟨ha, -⟩, hcat⟩ := h.erase hat
  obtain rfl : a = source := text_injective (ha.symm.trans hname)
  obtain ⟨hl, hmn, -⟩ := mem_credentials.mp (mem_of_lookup hb)
  rw [lookup_credentials hmn hl, hf, Option.some.injEq] at hb
  subst hb
  have hcred : credentials (restored py document index a target f w).archive =
      (credentials w.archive).erase a := by
    rw [restored, credentials_insert_reserved (Or.inl rfl), credentials_erase]
  constructor
  · unfold Inv
    rw [hcred, restored, savedEntries_insert, manifest_entries hm, lookup_erase_update]
    exact hcat
  · unfold held
    rw [hcred, restored, contents_insert htarget,
      @contents_erase _ _ _ (credentials w.archive) a f (by rwa [lookup_credentials hmn hl])]
    simp

/-! ### Runs -/

/-- The states a run reaches from an empty archive: `archive_candidates` on batches that meet `P` in
the state they find, `restore_run`, and other programs changing the auth directory and the
receipts. -/
inductive Reach (py : Py) (sameDevice : Bool) (P : World → List ArchiveCandidate → Prop) :
    World → Prop where
  | start (auth : Dir FileName File) (receipts : Finset FileName) :
    Reach py sameDevice P ⟨auth, ∅, none, receipts⟩
  | archive {w : World} {candidates : List ArchiveCandidate} (movedAt : Str) :
    Reach py sameDevice P w → Batch candidates → P w candidates →
      Reach py sameDevice P (archiveCandidates py sameDevice steady candidates movedAt w).2
  | restore {w : World} (selector confirm : Str) : Reach py sameDevice P w →
      Reach py sameDevice P (restoreRun py sameDevice steady selector confirm w).2
  | rewrite {w : World} (auth : Dir FileName File) (receipts : Finset FileName) :
    Reach py sameDevice P w → Reach py sameDevice P { w with auth := auth, receipts := receipts }

/-- A separate batch keeps the invariant, loses nothing and overwrites nothing. -/
theorem archive_kept {candidates : List ArchiveCandidate} (movedAt : Str) (hb : Batch candidates)
    (hsep : Separate py w candidates) (h : Inv py w) :
    Inv py (archiveCandidates py sameDevice steady candidates movedAt w).2 ∧
      held (archiveCandidates py sameDevice steady candidates movedAt w).2 = held w ∧
      ∀ n f, (credentials w.archive).lookup n = some f → (credentials
        (archiveCandidates py sameDevice steady candidates movedAt w).2.archive).lookup n =
          some f := by
  rcases archive_cases py sameDevice hb movedAt w with ⟨hrun, -⟩ | ⟨e, hrun⟩ |
    ⟨document, selected, hm, hsel, hrun⟩
  · rw [hrun]; exact ⟨h, rfl, fun n f hf => hf⟩
  · rw [hrun]
    exact ⟨inv_locked.mpr h, held_locked w, fun n f hf => by rw [locked_credentials]; exact hf⟩
  · rw [hrun]
    rw [← locked_separate hb] at hsep
    have hheld := @held_archived py w.locked _ movedAt document _ hb hsep hsel
    rw [held_locked, locked_credentials] at hheld
    exact ⟨inv_archived hb hsep hm hsel (inv_locked.mpr h), hheld⟩

/-- A restore keeps the invariant and loses nothing. -/
theorem restore_kept (selector confirm : Str) (h : Inv py w) :
    Inv py (restoreRun py sameDevice steady selector confirm w).2 ∧
      held (restoreRun py sameDevice steady selector confirm w).2 = held w := by
  rcases restore_cases py sameDevice selector confirm w with ⟨e, hrun | hrun⟩ |
    ⟨document, index, source, target, f, hm, hsel, hf, hrun⟩
  · rw [hrun]; exact ⟨h, rfl⟩
  · rw [hrun]; exact ⟨inv_locked.mpr h, held_locked w⟩
  · rw [hrun, ← held_locked w]
    exact inv_restored hm hsel hf (inv_locked.mpr h)

/-- **The invariant holds along every run of separate batches.** -/
theorem Reach.inv (h : Reach py sameDevice (Separate py) w) : Inv py w := by
  induction h with
  | start auth receipts =>
    have hempty : credentials (∅ : Dir FileName File) = ∅ := by decide
    unfold Inv
    rw [hempty]
    have hnone : (fun n => (∅ : Dir FileName File).lookup n) = fun _ => none :=
      funext fun n => Finmap.lookup_empty n
    rw [hnone]
    exact Catalogue.empty
  | archive movedAt _ hb hsep ih => exact (archive_kept movedAt hb hsep ih).1
  | restore selector confirm _ ih => exact (restore_kept selector confirm ih).1
  | rewrite auth receipts _ ih => exact ih

/-- A call that returns on a batch that is not separate leaves two entries for one file. -/
theorem archive_not_sound {candidates : List ArchiveCandidate} {movedAt : Str} {count : ℕ}
    (hb : Batch candidates) (hsep : ¬ Separate py w candidates)
    (hrun : (archiveCandidates py sameDevice steady candidates movedAt w).1 = .ok count) :
    ¬ Sound py (archiveCandidates py sameDevice steady candidates movedAt w).2 := by
  rcases archive_cases py sameDevice hb movedAt w with ⟨-, rfl⟩ | ⟨e, h⟩ |
    ⟨document, selected, -, hsel, h⟩
  · exact absurd (fun n hn => absurd hn (by simp [sourceNames, eligible])) hsep
  · rw [h] at hrun; exact absurd hrun (by simp)
  · rw [h]
    exact not_sound_archived hb (by rwa [locked_separate hb]) hsel

/-- **No credential is lost along a run of separate batches.** In every state the archive and its
manifest agree; a restore and a separate batch keep all credential bytes, and a separate batch
overwrites no archived file. A batch that is not separate breaks the manifest whenever its call
returns. -/
theorem archive_keeps_credentials (py : Py) (sameDevice : Bool) (w : World)
    (h : Reach py sameDevice (Separate py) w) :
    Sound py w ∧
    (∀ candidates movedAt, Batch candidates → Separate py w candidates →
      Sound py (archiveCandidates py sameDevice steady candidates movedAt w).2 ∧
      held (archiveCandidates py sameDevice steady candidates movedAt w).2 = held w ∧
      ∀ n f, (credentials w.archive).lookup n = some f → (credentials
        (archiveCandidates py sameDevice steady candidates movedAt w).2.archive).lookup n =
          some f) ∧
    (∀ selector confirm, held (restoreRun py sameDevice steady selector confirm w).2 = held w) ∧
    ∀ candidates movedAt count, Batch candidates → ¬ Separate py w candidates →
      (archiveCandidates py sameDevice steady candidates movedAt w).1 = .ok count →
        ¬ Sound py (archiveCandidates py sameDevice steady candidates movedAt w).2 := by
  refine ⟨h.inv.sound, fun candidates movedAt hb hsep => ?_, fun selector confirm => ?_,
    fun candidates movedAt count hb hsep => archive_not_sound hb hsep⟩
  · obtain ⟨hinv, hrest⟩ := @archive_kept py sameDevice w _ movedAt hb hsep h.inv
    exact ⟨hinv.sound, hrest⟩
  · exact (restore_kept selector confirm h.inv).2

/-! ### Two runs -/

/-- The name with the text `manifest.2.json`. -/
def manifestTwo : FileName := ⟨lit "manifest.2.json", by decide⟩

/-- An empty archive, and two credentials named `manifest.json` and `manifest.2.json`. -/
def clashWorld : World :=
  ⟨(Finmap.singleton manifestName (textFile "one")).insert manifestTwo (textFile "two"), ∅, none, ∅⟩

/-- The two files of `clashWorld` as candidates. -/
def clashBatch (py : Py) : List ArchiveCandidate :=
  [candidateFor py manifestName "one", candidateFor py manifestTwo "two"]

theorem clashBatch_batch (py : Py) : Batch (clashBatch py) := by
  have hn : [manifestName, manifestTwo].Nodup := by decide
  have hj : ∀ n ∈ [manifestName, manifestTwo], endsWith n.text (lit ".json") := by decide
  refine ⟨hn, fun c hc => hj _ ?_⟩
  exact List.mem_map_of_mem (f := fun c : ArchiveCandidate => c.record.path) hc

/-- Both files are given the name `manifest.2.json`. -/
theorem clash_select (py : Py) : select py clashWorld.locked (clashBatch py) =
    .ok [(candidateFor py manifestName "one", manifestTwo),
      (candidateFor py manifestTwo "two", manifestTwo)] := by
  have h1 : clashWorld.locked.auth.lookup manifestName = some (textFile "one") := by decide
  have h2 : clashWorld.locked.auth.lookup manifestTwo = some (textFile "two") := by decide
  have t1 : uniqueTarget clashWorld.locked.archive manifestName = manifestTwo := by decide
  have t2 : uniqueTarget clashWorld.locked.archive manifestTwo = manifestTwo := by decide
  have s1 : ¬ maxAuthFileBytes < (textFile "one").bytes.length := by decide
  have s2 : ¬ maxAuthFileBytes < (textFile "two").bytes.length := by decide
  simp [clashBatch, candidateFor, select, h1, h2, t1, t2, s1, s2, Except.map]

/-- Archiving both files of `clashWorld` in one call puts the second over the first: the manifest
then has two entries for one file. -/
theorem archive_overwrites :
    ¬ ∃ py : Py, ∀ w, Reach py true (fun _ _ => True) w → Sound py w := by
  rintro ⟨py, h⟩
  have hb := clashBatch_batch py
  have hrun := @archive_ok py clashWorld _ [] _ _ hb (by simp [clashBatch])
    (rfl : manifest clashWorld.locked.archive = _) (clash_select py)
  have hreach : Reach py true (fun _ _ => True)
      (archiveCandidates py true steady (clashBatch py) [] clashWorld).2 :=
    .archive [] (.start clashWorld.auth ∅) hb trivial
  rw [hrun] at hreach
  refine not_sound_archived hb ?_ (clash_select py) (h _ hreach)
  rw [← targets_nodup_iff hb (clash_select py)]
  simp

/-- Archiving a file, restoring it and archiving it again. -/
theorem archive_keeps_credentials_thrice :
    let batch := [candidateFor onePy aJson "one"]
    let w1 := (archiveCandidates onePy true steady batch [] oneWorld).2
    let w2 := (restoreRun onePy true steady aJson.text aJson.text w1).2
    let w3 := (archiveCandidates onePy true steady batch [] w2).2
    Sound onePy w3 ∧ aJson ∈ w3.archive ∧ aJson ∉ w3.auth := by
  intro batch w1 w2 w3
  have hb : Batch batch := ⟨by decide, by decide⟩
  have hsep : ∀ w : World, aJson ∉ w.archive → Separate onePy w batch := by
    intro w hw n hn m _ hcol
    obtain ⟨c, hc, rfl⟩ := List.mem_map.mp hn
    rw [List.mem_singleton.mp (List.mem_of_mem_filter hc)] at hcol
    rcases hcol.1 with h | h
    · exact absurd h (by decide)
    · exact hw h
  have hr : Reach onePy true (Separate onePy) w3 :=
    .archive [] (.restore _ _ (.archive [] (.start oneWorld.auth ∅) hb (hsep oneWorld (by decide)))) hb
      (hsep w2 (by decide +kernel))
  exact ⟨(archive_keeps_credentials onePy true w3 hr).1, by decide +kernel, by decide +kernel⟩

end Cloudx.Local.ArchiveRuns
