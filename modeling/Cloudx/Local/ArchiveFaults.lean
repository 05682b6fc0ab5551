import Cloudx.Local.ArchiveMoves

/-! # Failing steps of the local archive

What one failing file-system step leaves behind when `archive_candidates` or `restore_run` raises.

A batch whose targets differ is undone by the rollback, file by file (`rollback_moveAll`). Three
kinds of failures are not undone. A target's `chmod` stands between the move and its registration in
`moved`, so the rollback does not know the file. The two directory `fsync`s come after the manifest
was replaced, and the rollback does not write it back. And a batch with two equal targets has already
lost a file when the rollback starts (`total_moveAll_lt`). `archive_restored_iff` and
`restore_restored_iff` say that these are all. -/

namespace Cloudx.Local.ArchiveFaults

open Cloudx.Lib.Store Cloudx.Lib.Fault
open Cloudx.Python.Text Cloudx.Python.Value Cloudx.Python.Dump Cloudx.Local.Archive Cloudx.Local.ArchiveMoves

variable {py : Py} {sameDevice : Bool} {w : World}

/-- The auth files, the archived credentials and the manifest entries are those of `w`. -/
structure Restored (w w' : World) : Prop where
  auth : w'.auth = w.auth
  credentials : credentials w'.archive = credentials w.archive
  entries : savedEntries w'.archive = savedEntries w.archive

/-! ### The rollback -/

/-- One round of the rollback. -/
def undo (fails : ArchiveStep → Bool) (i : ℕ) (source target : FileName) (w : World) : World :=
  if source ∉ w.auth ∧ target ∈ w.archive ∧ fails (.rollback i) = false then
    match transfer w.archive w.auth target source with
    | none => w
    | some (archive, auth) => { w with auth := auth, archive := archive }
  else w

theorem rollback_cons (fails : ArchiveStep → Bool) (i : ℕ) (source target : FileName)
    (l : List (FileName × FileName)) (w : World) :
    (rollback fails i ((source, target) :: l) w).2 =
      (rollback fails (i + 1) l (undo fails i source target w)).2 := by
  rw [rollback, undo]
  by_cases h1 : source ∉ w.auth ∧ target ∈ w.archive
  · by_cases h2 : fails (.rollback i) = true
    · rw [if_pos h1, if_pos h2, if_neg (by simp [h2])]
    · rw [Bool.not_eq_true] at h2
      rw [if_pos h1, if_neg (by simp [h2]), if_pos ⟨h1.1, h1.2, h2⟩]
      rcases transfer w.archive w.auth target source with _ | ⟨archive, auth⟩ <;> rfl
  · rw [if_neg h1, if_neg fun h => h1 ⟨h.1, h.2.1⟩]

/-- A round does nothing, or puts the file of the target back under the source's name. -/
theorem undo_cases (fails : ArchiveStep → Bool) (i : ℕ) (source target : FileName) (w : World) :
    undo fails i source target w = w ∨ ∃ f, source ∉ w.auth ∧ w.archive.lookup target = some f ∧
      undo fails i source target w =
        { w with auth := w.auth.insert source f, archive := w.archive.erase target } := by
  unfold undo
  split_ifs with h
  · obtain ⟨f, hf⟩ := lookup_of_mem h.2.1
    right
    refine ⟨f, h.1, hf, ?_⟩
    rw [transfer_of_lookup hf]
  · left; rfl

theorem rollback_append (fails : ArchiveStep → Bool) (m : List (FileName × FileName)) :
    ∀ (l : List (FileName × FileName)) (i : ℕ) (w : World), (rollback fails i (l ++ m) w).2 =
      (rollback fails (i + l.length) m (rollback fails i l w).2).2
  | [], i, w => by simp [rollback]
  | (source, target) :: l, i, w => by
    rw [List.cons_append, rollback_cons, rollback_cons, rollback_append fails m l, List.length_cons,
      show i + 1 + l.length = i + (l.length + 1) by omega]

/-- **A rollback that is not itself disturbed undoes a batch with fresh targets.** -/
theorem rollback_moveAll {fails : ArchiveStep → Bool} (hroll : ∀ i, fails (.rollback i) = false)
    (temporary : Option File) :
    ∀ (selected : List (ArchiveCandidate × FileName)) (i : ℕ) (w : World),
      Sources w.auth selected → FreshTargets w.archive selected →
        (rollback fails i (movedOf selected).reverse
          { moveAll selected w with temporary := temporary }).2 = { w with temporary := temporary }
  | [], i, w, _, _ => by simp [movedOf, rollback, moveAll]
  | (c, target) :: rest, i, w, hs, ht => by
    obtain ⟨f, hf, hrest⟩ := hs.tail
    have hfree := ht.free (c, target) (List.mem_cons_self ..)
    have hmoved : (movedOf ((c, target) :: rest)).reverse =
        (movedOf rest).reverse ++ [(c.record.path, target)] := by
      rw [movedOf, List.map_cons, List.reverse_cons]; rfl
    rw [hmoved, rollback_append, moveAll, hf]
    simp only
    rw [rollback_moveAll hroll temporary rest i _ hrest (ht.tail f), rollback_cons, undo, if_pos,
      transfer_back hf hfree]
    · rfl
    · exact ⟨Finmap.notMem_erase_self, Finmap.mem_insert.mpr (Or.inl rfl), hroll _⟩

/-- A file that is not a source of the rollback stays as it is. -/
theorem rollback_auth (fails : ArchiveStep → Bool) {n : FileName} :
    ∀ (l : List (FileName × FileName)) (i : ℕ) (w : World), n ∉ l.map Prod.fst →
      (rollback fails i l w).2.auth.lookup n = w.auth.lookup n
  | [], i, w, _ => rfl
  | (source, target) :: l, i, w, h => by
    rw [List.map_cons, List.mem_cons, not_or] at h
    rw [rollback_cons, rollback_auth fails l _ _ h.2]
    rcases undo_cases fails i source target w with hu | ⟨f, -, -, hu⟩
    · rw [hu]
    · rw [hu]; exact Finmap.lookup_insert_of_ne _ h.1

/-- The rollback leaves the manifest alone, unless that is one of its targets. -/
theorem rollback_manifest (fails : ArchiveStep → Bool) :
    ∀ (l : List (FileName × FileName)) (i : ℕ) (w : World), manifestName ∉ l.map Prod.snd →
      (rollback fails i l w).2.archive.lookup manifestName = w.archive.lookup manifestName
  | [], i, w, _ => rfl
  | (source, target) :: l, i, w, h => by
    rw [List.map_cons, List.mem_cons, not_or] at h
    rw [rollback_cons, rollback_manifest fails l _ _ h.2]
    rcases undo_cases fails i source target w with hu | ⟨f, -, -, hu⟩
    · rw [hu]
    · rw [hu]; exact Finmap.lookup_erase_ne h.1

/-! ### Counting the files -/

/-- The number of credential files in the two directories. -/
def total (w : World) : ℕ := (contents w.auth).card + (contents (credentials w.archive)).card

theorem Restored.total_eq {w' : World} (h : Restored w w') : total w' = total w := by
  rw [total, total, h.auth, h.credentials]

/-- A rollback neither makes nor loses a file. -/
theorem total_rollback (fails : ArchiveStep → Bool) :
    ∀ (l : List (FileName × FileName)) (i : ℕ) (w : World),
      (∀ p ∈ l, p.2 ≠ manifestName ∧ p.2 ≠ lockName) → total (rollback fails i l w).2 = total w
  | [], i, w, _ => rfl
  | (source, target) :: l, i, w, h => by
    obtain ⟨hm, hl⟩ : target ≠ manifestName ∧ target ≠ lockName :=
      h (source, target) (List.mem_cons_self ..)
    rw [rollback_cons, total_rollback fails l _ _ fun p hp => h p (List.mem_cons_of_mem _ hp)]
    rcases undo_cases fails i source target w with hu | ⟨f, hs, hf, hu⟩
    · rw [hu]
    · rw [← lookup_credentials hm hl] at hf
      rw [hu, total, total, credentials_erase, contents_insert hs, contents_erase hf,
        Multiset.card_cons, Multiset.card_cons]
      omega

/-- One move never adds a file, and drops one if its target is there. -/
theorem total_move {c : FileName} {target : FileName} {f : File}
    (hf : w.auth.lookup c = some f) (hm : target ≠ manifestName) (hl : target ≠ lockName) :
    total { w with auth := w.auth.erase c, archive := w.archive.insert target f } +
      (if target ∈ w.archive then 1 else 0) = total w := by
  have hauth : (contents w.auth).card = (contents (w.auth.erase c)).card + 1 := by
    rw [contents_erase hf, Multiset.card_cons]
  unfold total
  rw [credentials_insert hm hl, hauth]
  split_ifs with h
  · rw [card_contents_insert (mem_credentials.mpr ⟨hl, hm, h⟩)]
    simp only
    omega
  · rw [contents_insert fun hc => h (mem_credentials.mp hc).2.2, Multiset.card_cons]
    simp only
    omega

theorem total_moveAll_le : ∀ (selected : List (ArchiveCandidate × FileName)) (w : World),
    (∀ x ∈ selected, x.2 ≠ manifestName ∧ x.2 ≠ lockName) → total (moveAll selected w) ≤ total w
  | [], w, _ => le_rfl
  | (c, target) :: rest, w, h => by
    obtain ⟨hm, hl⟩ : target ≠ manifestName ∧ target ≠ lockName :=
      h (c, target) (List.mem_cons_self ..)
    unfold moveAll
    split
    · exact le_rfl
    · next f hf =>
      have := total_moveAll_le rest
        { w with auth := w.auth.erase c.record.path, archive := w.archive.insert target f }
        fun x hx => h x (List.mem_cons_of_mem _ hx)
      have hmove := total_move hf hm hl
      omega

/-- **A batch in which two targets meet, or one is taken, loses a file.** -/
theorem total_moveAll_lt : ∀ (selected : List (ArchiveCandidate × FileName)) (w : World),
    Sources w.auth selected → (∀ x ∈ selected, x.2 ≠ manifestName ∧ x.2 ≠ lockName) →
      ¬ ((selected.map Prod.snd).Nodup ∧ ∀ x ∈ selected, x.2 ∉ w.archive) →
        total (moveAll selected w) < total w
  | [], w, _, _, h => absurd ⟨List.nodup_nil, by simp⟩ h
  | (c, target) :: rest, w, hs, hp, h => by
    obtain ⟨f, hf, hrest⟩ := hs.tail
    obtain ⟨hm, hl⟩ : target ≠ manifestName ∧ target ≠ lockName :=
      hp (c, target) (List.mem_cons_self ..)
    have hp' : ∀ x ∈ rest, x.2 ≠ manifestName ∧ x.2 ≠ lockName :=
      fun x hx => hp x (List.mem_cons_of_mem _ hx)
    have hmove := total_move hf hm hl
    unfold moveAll
    rw [hf]
    simp only
    by_cases htaken : target ∈ w.archive
    · rw [if_pos htaken] at hmove
      have := total_moveAll_le rest
        { w with auth := w.auth.erase c.record.path, archive := w.archive.insert target f } hp'
      omega
    · -- a clash with the head is now a taken target of the rest
      have := total_moveAll_lt rest
        { w with auth := w.auth.erase c.record.path, archive := w.archive.insert target f } hrest hp'
        fun hboth => h ?_
      · omega
      · obtain ⟨hnd, hfree⟩ := hboth
        refine ⟨List.nodup_cons.mpr ⟨fun hmem => ?_, hnd⟩, fun x hx => ?_⟩
        · obtain ⟨x, hx, hxt⟩ := List.mem_map.mp hmem
          exact hfree x hx (Finmap.mem_insert.mpr (Or.inl hxt))
        · rcases List.mem_cons.mp hx with rfl | hx
          · exact htaken
          · exact fun hin => hfree x hx (Finmap.mem_insert.mpr (Or.inr hin))

/-! ### Where the `try` block can stop -/

section

variable {candidates : List ArchiveCandidate} {movedAt : Str} {document : Dict}
  {selected : List (ArchiveCandidate × FileName)} {entries : List Json} {i : ℕ}

theorem Sources.take {auth : Dir FileName File} (h : Sources auth selected) (k : ℕ) :
    Sources auth (selected.take k) :=
  ⟨h.nodup.sublist ((List.take_sublist k selected).map _), fun x hx => h.mem x (List.mem_of_mem_take hx)⟩

/-- A failing move: the files before it have been moved and registered. -/
theorem moveLoop_fail_move (hs : Sources w.auth selected) (hi : i < selected.length) :
    moveLoop (only (.move i)) movedAt 0 selected entries ⟨w, []⟩ =
      (.error .os, ⟨moveAll (selected.take i) w, movedOf (selected.take i)⟩) := by
  have hcut : selected = selected.take i ++ selected[i] :: selected.drop (i + 1) := by
    rw [← List.drop_eq_getElem_cons hi, List.take_append_drop]
  have hlen : (selected.take i).length = i := List.length_take_of_le hi.le
  conv_lhs => rw [hcut]
  rw [moveLoop_append _ _ _ _ _ _ _ (Sources.take hs i)]
  · rw [hlen, Nat.zero_add, moveLoop]
    exact Act.bind_error (Act.step_fail (only_self _) _ _ _)
  · intro j hj
    refine ⟨only_ne ?_, only_ne ?_⟩ <;> simp; omega

/-- A failing `chmod`: its file has been moved and not registered. -/
theorem moveLoop_fail_chmod (hs : Sources w.auth selected) (hi : i < selected.length) :
    ∃ w', moveLoop (only (.chmod i)) movedAt 0 selected entries ⟨w, []⟩ =
      (.error .os, ⟨w', movedOf (selected.take i)⟩) ∧ sourceOf selected[i] ∉ w'.auth := by
  have hcut : selected = selected.take i ++ selected[i] :: selected.drop (i + 1) := by
    rw [← List.drop_eq_getElem_cons hi, List.take_append_drop]
  have hlen : (selected.take i).length = i := List.length_take_of_le hi.le
  obtain ⟨f, hf⟩ := lookup_of_mem (hs.mem _ (List.getElem_mem hi))
  have hfresh : sourceOf selected[i] ∉ (selected.take i).map sourceOf := by
    have hnd := hs.nodup
    rw [hcut, List.map_append, List.map_cons] at hnd
    intro hmem
    exact (List.nodup_append.mp hnd).2.2 _ hmem _ (List.mem_cons_self ..) rfl
  have hnow : (moveAll (selected.take i) w).auth.lookup selected[i].1.record.path = some f := by
    rw [moveAll_auth _ w (Sources.take hs i), if_neg hfresh, hf]
  have hmove : only (ArchiveStep.chmod i) (.move i) = false := only_ne (by simp)
  refine ⟨{ moveAll (selected.take i) w with
      auth := (moveAll (selected.take i) w).auth.erase selected[i].1.record.path
      archive := (moveAll (selected.take i) w).archive.insert selected[i].2 f },
    ?_, Finmap.notMem_erase_self⟩
  conv_lhs => rw [hcut]
  rw [moveLoop_append _ _ _ _ _ _ _ (Sources.take hs i)]
  · rw [hlen, Nat.zero_add, moveLoop]
    simp only [Act.bind_run, Act.step_ok hmove, Txn.lift, replaceIntoArchive,
      transfer_of_lookup hnow, Act.step_fail (only_self _), List.nil_append]
  · intro j hj
    refine ⟨only_ne ?_, only_ne ?_⟩ <;> simp; omega

/-- What the rollback makes of the first `k` files of a selection. -/
theorem restored_take_iff {fails : ArchiveStep → Bool} (hroll : ∀ i, fails (.rollback i) = false)
    (hb : Batch candidates) (hsel : select py w candidates = .ok selected)
    (temporary : Option File) (k : ℕ) :
    Restored w (rollback fails 0 (movedOf (selected.take k)).reverse
        { moveAll (selected.take k) w with temporary := temporary }).2 ↔
      Apart w.archive ((sourceNames py w.auth candidates).take k) := by
  have hs := Sources.take (select_sources hb hsel) k
  have hfree : ∀ x ∈ selected.take k, x.2 ∉ w.archive :=
    fun x hx => (select_free hb hsel (List.mem_of_mem_take hx)).1
  have hplain : ∀ x ∈ selected.take k, x.2 ≠ manifestName ∧ x.2 ≠ lockName :=
    fun x hx => (select_free hb hsel (List.mem_of_mem_take hx)).2
  rw [← take_targets_nodup_iff hb hsel k]
  constructor
  · intro h
    by_contra hnd
    have hlost := total_moveAll_lt (selected.take k) w hs hplain fun h => hnd h.1
    have hkeep := total_rollback fails (movedOf (selected.take k)).reverse 0
      { moveAll (selected.take k) w with temporary := temporary } fun p hp => by
        obtain ⟨x, hx, rfl⟩ := List.mem_map.mp (List.mem_reverse.mp hp)
        exact hplain x hx
    rw [h.total_eq] at hkeep
    exact absurd hkeep (Nat.ne_of_gt hlost)
  · intro hnd
    rw [rollback_moveAll hroll temporary _ 0 w hs ⟨hnd, hfree, hplain⟩]
    exact ⟨rfl, rfl, rfl⟩

/-- The failing steps after which the rollback brings everything back: a move, if the files moved
before it have different targets; the manifest write, if all have; a directory `fsync`, if there is
nothing to archive; a `chmod` never. -/
def Recoverable (py : Py) (w : World) (candidates : List ArchiveCandidate) : ArchiveStep → Prop
  | .prepare => True
  | .move i => Apart w.archive ((sourceNames py w.auth candidates).take i)
  | .chmod _ => False
  | .write _ => Separate py w candidates
  | .fsyncArchive => sourceNames py w.auth candidates = []
  | .fsyncAuth => sourceNames py w.auth candidates = []
  | .rollback _ => True

/-- A `try` block that fails ends in the rollback. -/
theorem archiveLocked_error {fails : ArchiveStep → Bool} {e : PyError} {t : Txn}
    (hm : manifest w.archive = .ok document) (hsel : select py w candidates = .ok selected)
    (hbody : archiveBody py fails movedAt document selected ⟨w, []⟩ = (.error e, t)) :
    (archiveLocked py true fails candidates movedAt w).2 =
      (rollback fails 0 t.moved.reverse t.world).2 := by
  simp [archiveLocked, hm, hsel, hbody]

theorem archiveLocked_ok {fails : ArchiveStep → Bool} {e : PyError}
    (hb : Batch candidates) (hm : manifest w.archive = .ok document)
    (hsel : select py w candidates = .ok selected)
    (hloop : ∀ j < selected.length, fails (.move j) = false ∧ fails (.chmod j) = false)
    (hwrite : ∀ s, fails (.write s) = false) (harchive : fails .fsyncArchive = false)
    (hauth : fails .fsyncAuth = false) :
    (archiveLocked py true fails candidates movedAt w).1 ≠ .error e := by
  have hbody := @archiveBody_ok py w fails movedAt document selected (select_sources hb hsel) hloop
    hwrite harchive hauth
  simp [archiveLocked, hm, hsel, hbody]

/-- A failing directory `fsync` keeps the new manifest. -/
theorem fsync_restored_iff {fails : ArchiveStep → Bool} {e : PyError}
    (hb : Batch candidates) (hm : manifest w.archive = .ok document)
    (hsel : select py w candidates = .ok selected)
    (hbody : archiveBody py fails movedAt document selected ⟨w, []⟩ =
      (.error e, ⟨{ moveAll selected w with
        archive := (moveAll selected w).archive.insert manifestName (jsonFile py true
          (set document (lit "entries") (.arr (entriesOf document ++ entriesFor selected movedAt))))
        temporary := none }, movedOf selected⟩)) :
    Restored w (archiveLocked py true fails candidates movedAt w).2 ↔
      sourceNames py w.auth candidates = [] := by
  have hlen : (sourceNames py w.auth candidates).length = selected.length := by
    rw [select_eq hsel, sourceNames, List.length_map, List.length_map]
  rw [archiveLocked_error hm hsel hbody]
  constructor
  · intro h
    have hentries := h.entries
    have hkeep := rollback_manifest fails (movedOf selected).reverse 0
      { moveAll selected w with
        archive := (moveAll selected w).archive.insert manifestName (jsonFile py true
          (set document (lit "entries") (.arr (entriesOf document ++ entriesFor selected movedAt))))
        temporary := none } fun hmem => by
          obtain ⟨p, hp, hpm⟩ := List.mem_map.mp hmem
          obtain ⟨x, hx, rfl⟩ := List.mem_map.mp (List.mem_reverse.mp hp)
          exact (select_free hb hsel hx).2.1 hpm
    rw [savedEntries_congr hkeep, savedEntries_insert, manifest_entries hm] at hentries
    have := congrArg List.length hentries
    rw [List.length_append, entriesFor, List.length_map] at this
    exact List.length_eq_zero_iff.mp (by omega)
  · intro hnil
    rw [hnil, List.length_nil] at hlen
    obtain rfl : selected = [] := List.length_eq_zero_iff.mp hlen.symm
    refine ⟨rfl, credentials_insert_reserved (Or.inl rfl) _, ?_⟩
    refine (savedEntries_insert py w.archive document _).trans ?_
    rw [entriesFor, List.map_nil, List.append_nil, manifest_entries hm]

/-- **One failing step, once the checks are passed.** -/
theorem archiveLocked_restored_iff {e : PyError} {t : ArchiveStep} (ht : ∀ i, t ≠ .rollback i)
    (hb : Batch candidates) (hm : manifest w.archive = .ok document)
    (hsel : select py w candidates = .ok selected)
    (h : (archiveLocked py true (only t) candidates movedAt w).1 = .error e) :
    Restored w (archiveLocked py true (only t) candidates movedAt w).2 ↔
      Recoverable py w candidates t := by
  have hs := select_sources hb hsel
  have hlen : (sourceNames py w.auth candidates).length = selected.length := by
    rw [select_eq hsel, sourceNames, List.length_map, List.length_map]
  have hroll : ∀ i, only t (.rollback i) = false := fun i => only_ne (Ne.symm (ht i))
  cases t with
  | prepare =>
    exact absurd h (archiveLocked_ok hb hm hsel (fun j _ => ⟨rfl, rfl⟩) (fun _ => rfl) rfl rfl)
  | rollback i => exact absurd rfl (ht i)
  | move i =>
    by_cases hi : i < selected.length
    · have hbody : archiveBody py (only (.move i)) movedAt document selected ⟨w, []⟩ =
          (.error .os, ⟨moveAll (selected.take i) w, movedOf (selected.take i)⟩) := by
        rw [archiveBody]
        exact Act.bind_error (moveLoop_fail_move hs hi)
      rw [archiveLocked_error hm hsel hbody]
      have htemp := (moveAll_rest (selected.take i) w).1
      exact restored_take_iff hroll hb hsel (moveAll (selected.take i) w).temporary i
    · refine absurd h (archiveLocked_ok hb hm hsel (fun j hj => ⟨only_ne ?_, rfl⟩) (fun _ => rfl)
        rfl rfl)
      simp; omega
  | chmod i =>
    by_cases hi : i < selected.length
    · obtain ⟨w', hloop, hgone⟩ :=
        @moveLoop_fail_chmod w movedAt selected (entriesOf document) i hs hi
      have hbody : archiveBody py (only (.chmod i)) movedAt document selected ⟨w, []⟩ =
          (.error .os, ⟨w', movedOf (selected.take i)⟩) := by
        rw [archiveBody]
        exact Act.bind_error hloop
      rw [archiveLocked_error hm hsel hbody]
      refine ⟨fun hr => ?_, False.elim⟩
      -- the rollback does not know the file whose `chmod` failed
      have hkeep := rollback_auth (only (.chmod i)) (n := sourceOf selected[i])
        (movedOf (selected.take i)).reverse 0 w' fun hmem => by
          have hnd := hs.nodup
          rw [← List.take_append_drop i selected, List.drop_eq_getElem_cons hi, List.map_append,
            List.map_cons] at hnd
          obtain ⟨p, hp, hpm⟩ := List.mem_map.mp hmem
          obtain ⟨x, hx, rfl⟩ := List.mem_map.mp (List.mem_reverse.mp hp)
          exact (List.nodup_append.mp hnd).2.2 _ (List.mem_map_of_mem hx) _
            (List.mem_cons_self ..) hpm
      rw [hr.auth, Finmap.lookup_eq_none.mpr hgone] at hkeep
      exact Finmap.lookup_eq_none.mp hkeep (hs.mem _ (List.getElem_mem hi))
    · refine absurd h (archiveLocked_ok hb hm hsel (fun j hj => ⟨rfl, only_ne ?_⟩) (fun _ => rfl)
        rfl rfl)
      simp; omega
  | write s =>
    have hbody : ∃ temporary, archiveBody py (only (.write s)) movedAt document selected ⟨w, []⟩ =
        (.error .os, ⟨{ moveAll selected w with temporary := temporary }, movedOf selected⟩) := by
      rw [archiveBody, Act.bind_ok (moveLoop_ok hs fun j _ => ⟨rfl, rfl⟩)]
      rcases @atomicJson_fail py (fun s' => only (ArchiveStep.write s) (.write s')) s (only_self _)
        (set document (lit "entries") (.arr (entriesOf document ++ entriesFor selected movedAt)))
        (moveAll selected w) with hw | hw
      · exact ⟨_, Act.bind_error (by rw [Txn.lift, hw])⟩
      · exact ⟨_, Act.bind_error (by rw [Txn.lift, hw])⟩
    obtain ⟨temporary, hbody⟩ := hbody
    rw [archiveLocked_error hm hsel hbody]
    have := restored_take_iff hroll hb hsel temporary selected.length
    rwa [List.take_length, List.take_of_length_le hlen.le] at this
  | fsyncArchive =>
    refine @fsync_restored_iff py w candidates movedAt document selected _ .os hb hm hsel ?_
    rw [archiveBody, Act.bind_ok (moveLoop_ok hs fun j _ => ⟨rfl, rfl⟩)]
    simp only [Act.bind_run, Txn.lift, atomicJson_ok py fun s => (only_ne (by simp) :
      only ArchiveStep.fsyncArchive (.write s) = false), Act.step_fail (only_self _)]
  | fsyncAuth =>
    refine @fsync_restored_iff py w candidates movedAt document selected _ .os hb hm hsel ?_
    rw [archiveBody, Act.bind_ok (moveLoop_ok hs fun j _ => ⟨rfl, rfl⟩)]
    simp only [Act.bind_run, Txn.lift, atomicJson_ok py fun s => (only_ne (by simp) :
      only ArchiveStep.fsyncAuth (.write s) = false), Act.step_ok (only_ne (by simp) :
      only ArchiveStep.fsyncAuth .fsyncArchive = false), Act.pure_run, Act.step_fail (only_self _)]

end

/-! ### `archive_candidates` -/

/-- The checks before the first move refuse the call: two filesystems, an unreadable manifest, or a
candidate's file that is too large. -/
def Refused (sameDevice : Bool) (w : World) (candidates : List ArchiveCandidate) : Prop :=
  sameDevice = false ∨ (∃ e, manifest w.archive = .error e) ∨
    ∃ c ∈ candidates, ∃ f ∈ w.auth.lookup c.record.path, maxAuthFileBytes < f.bytes.length

theorem select_error_iff (py : Py) (w : World) : ∀ candidates : List ArchiveCandidate,
    (∃ e, select py w candidates = .error e) ↔
      ∃ c ∈ candidates, ∃ f ∈ w.auth.lookup c.record.path, maxAuthFileBytes < f.bytes.length
  | [] => by simp [select]
  | c :: cs => by
    have ih := select_error_iff py w cs
    rw [select, List.exists_mem_cons_iff, ← ih]
    rcases hf : w.auth.lookup c.record.path with _ | f
    · simp
    · by_cases hsize : maxAuthFileBytes < f.bytes.length
      · simp [hsize]
      · simp only [hsize, if_false, Option.mem_some_iff, exists_eq_left', false_or]
        split_ifs
        · rfl
        · rcases select py w cs with e | rest <;> simp [Except.map]

theorem Restored.refl (w : World) : Restored w w := ⟨rfl, rfl, rfl⟩

theorem restored_locked {w w' : World} : Restored w.locked w' ↔ Restored w w' := by
  constructor
  · intro h
    exact ⟨by rw [h.auth, locked_auth], by rw [h.credentials, locked_credentials],
      by rw [h.entries, locked_entries]⟩
  · intro h
    exact ⟨by rw [h.auth, locked_auth], by rw [h.credentials, locked_credentials],
      by rw [h.entries, locked_entries]⟩

theorem recoverable_locked {candidates : List ArchiveCandidate} (hb : Batch candidates)
    (t : ArchiveStep) : Recoverable py w.locked candidates t ↔ Recoverable py w candidates t := by
  cases t with
  | move i =>
    unfold Recoverable
    rw [locked_auth]
    exact locked_apart fun n hn => hb.names.2 n (List.mem_of_mem_take hn)
  | write s => exact locked_separate hb
  | fsyncArchive => unfold Recoverable; rw [locked_auth]
  | fsyncAuth => unfold Recoverable; rw [locked_auth]
  | prepare => exact Iff.rfl
  | chmod i => exact Iff.rfl
  | rollback i => exact Iff.rfl

/-- **When a failed `archive_candidates` leaves everything as it was.** -/
theorem archive_restored_iff {candidates : List ArchiveCandidate} {movedAt : Str} {e : PyError}
    {t : ArchiveStep} (ht : ∀ i, t ≠ .rollback i) (hb : Batch candidates)
    (h : (archiveCandidates py sameDevice (only t) candidates movedAt w).1 = .error e) :
    Restored w (archiveCandidates py sameDevice (only t) candidates movedAt w).2 ↔
      Refused sameDevice w candidates ∨ Recoverable py w candidates t := by
  have hne : candidates ≠ [] := by
    rintro rfl
    exact absurd h (by simp [archiveCandidates])
  by_cases hprep : t = .prepare
  · subst hprep
    have hrun : (archiveCandidates py sameDevice (only .prepare) candidates movedAt w).2 = w := by
      rw [archiveCandidates, if_neg hne]
      exact congrArg Prod.snd (Act.bind_error (Act.step_fail (only_self _) _ _ _))
    rw [hrun]
    exact ⟨fun _ => Or.inr trivial, fun _ => Restored.refl w⟩
  rw [archiveCandidates_run hne (only_ne (Ne.symm hprep))] at h ⊢
  rw [← restored_locked]
  by_cases hrefused : Refused sameDevice w candidates
  · refine ⟨fun _ => Or.inl hrefused, fun _ => ?_⟩
    have hrun : (archiveLocked py sameDevice (only t) candidates movedAt w.locked).2 = w.locked := by
      unfold archiveLocked
      rcases sameDevice with _ | _
      · rfl
      rcases hm : manifest w.locked.archive with e' | document
      · simp
      rcases hsel : select py w.locked candidates with e' | selected
      · simp
      · exfalso
        rcases hrefused with h' | ⟨e', h'⟩ | h'
        · exact absurd h' (by simp)
        · rw [← locked_manifest, hm] at h'; exact absurd h' (by simp)
        · rw [← locked_auth w, ← select_error_iff py w.locked] at h'
          obtain ⟨e', h'⟩ := h'
          rw [hsel] at h'; exact absurd h' (by simp)
    rw [hrun]
    exact Restored.refl _
  · have hchecks : sameDevice = true ∧ (∃ document, manifest w.locked.archive = .ok document) ∧
        ∃ selected, select py w.locked candidates = .ok selected := by
      unfold Refused at hrefused
      rw [← locked_auth w, ← select_error_iff py w.locked, ← locked_manifest] at hrefused
      push Not at hrefused
      obtain ⟨h1, h2, h3⟩ := hrefused
      refine ⟨by simpa using h1, ?_, ?_⟩
      · rcases hm : manifest w.locked.archive with e' | document
        · exact absurd hm (h2 e')
        · exact ⟨document, rfl⟩
      · rcases hsel : select py w.locked candidates with e' | selected
        · exact absurd hsel (h3 e')
        · exact ⟨selected, rfl⟩
    obtain ⟨rfl, ⟨document, hm⟩, selected, hsel⟩ := hchecks
    rw [archiveLocked_restored_iff ht hb hm hsel h, recoverable_locked hb]
    exact ⟨Or.inr, fun h => h.resolve_left hrefused⟩

/-! ### `restore_run` -/

/-- The checks before the move refuse the call. -/
def RestoreRefused (py : Py) (sameDevice : Bool) (w : World) (selector confirm : Str) : Prop :=
  confirm ≠ selector ∨ pathName selector ≠ selector ∨ sameDevice = false ∨
    (∃ e, manifest w.archive = .error e) ∨
    ∃ document e, manifest w.archive = .ok document ∧
      restoreSelect py w document selector = .error e

/-- Taking the lock does not change what a restore selects. -/
theorem locked_restoreSelect (w : World) (document : Dict) (selector : Str) :
    restoreSelect py w.locked document selector = restoreSelect py w document selector := by
  unfold restoreSelect
  split
  · next entry index hmatch =>
    simp only
    split_ifs with hplain
    · rfl
    · split
      · next source target hs ht =>
        have hjson : endsWith source.text (lit ".json") := by
          unfold FileName.ofStr? at hs
          split_ifs at hs with hv
          rw [← Option.some.inj hs]
          simp only [plainJsonName, Bool.or_eq_true, not_or, Bool.not_eq_true, Bool.not_eq_false',
            Bool.and_eq_true] at hplain
          exact hplain.1.2
        simp only [locked_auth, locked_mem w (json_ne_lock hjson)]
      · rfl
  · rfl

/-- One failing step of a restore, once the checks are passed. -/
theorem restoreBody_restored_iff {document : Dict} {index : ℕ} {source target : FileName} {f : File}
    {e : PyError} {t : RestoreStep} (ht : t ≠ .rollback) (hf : w.archive.lookup source = some f)
    (htarget : target ∉ w.auth)
    (h : (restoreBody py (only t) document index source target w).1 = .error e) :
    Restored w (restoreBody py (only t) document index source target w).2 ↔ t ≠ .chmod := by
  cases t with
  | prepare =>
    rw [restoreBody_ok hf rfl rfl fun s => only_ne (by simp)] at h
    exact absurd h (by simp)
  | rollback => exact absurd rfl ht
  | move =>
    simp only [restoreBody, Act.bind_run, Act.except, Act.step_fail (only_self _), Act.raise_run]
    exact ⟨fun _ => by simp, fun _ => Restored.refl w⟩
  | chmod =>
    have hmove : only RestoreStep.chmod .move = false := rfl
    simp only [restoreBody, Act.bind_run, Act.except, Act.step_ok hmove, replaceFromArchive,
      transfer_of_lookup hf, Act.step_fail (only_self _)]
    refine ⟨fun hr => ?_, fun h => absurd rfl h⟩
    have hauth := hr.auth
    simp only at hauth
    exact absurd (hauth ▸ Finmap.mem_insert.mpr (Or.inl rfl)) htarget
  | write s =>
    have hmove : only (RestoreStep.write s) .move = false := rfl
    have hchmod : only (RestoreStep.write s) .chmod = false := rfl
    have hroll : only (RestoreStep.write s) .rollback = false := rfl
    refine ⟨fun _ => by simp, fun _ => ?_⟩
    rcases @atomicJson_fail py (fun s' => only (RestoreStep.write s) (.write s')) s (only_self _)
      (set document (lit "entries") (.arr ((entriesOf document).eraseIdx index)))
      { w with auth := w.auth.insert target f, archive := w.archive.erase source } with hw | hw <;>
    · simp only [restoreBody, Act.bind_run, Act.except, Act.step_ok hmove, replaceFromArchive,
        transfer_of_lookup hf, Act.step_ok hchmod, Act.pure_run, hw, Act.step_ok hroll,
        replaceIntoArchive, transfer_back hf htarget, Act.raise_run]
      exact ⟨rfl, rfl, rfl⟩

/-- **When a failed `restore_run` leaves everything as it was.** -/
theorem restore_restored_iff {selector confirm : Str} {e : PyError} {t : RestoreStep}
    (ht : t ≠ .rollback)
    (h : (restoreRun py sameDevice (only t) selector confirm w).1 = .error e) :
    Restored w (restoreRun py sameDevice (only t) selector confirm w).2 ↔
      RestoreRefused py sameDevice w selector confirm ∨ t ≠ .chmod := by
  by_cases hc : confirm ≠ selector ∨ pathName selector ≠ selector
  · have hrun : (restoreRun py sameDevice (only t) selector confirm w).2 = w := by
      rw [restoreRun, if_pos hc]; rfl
    rw [hrun]
    refine ⟨fun _ => Or.inl ?_, fun _ => Restored.refl w⟩
    rcases hc with hc | hc
    · exact Or.inl hc
    · exact Or.inr (Or.inl hc)
  rw [not_or, not_not, not_not] at hc
  obtain ⟨rfl, hname⟩ := hc
  by_cases hprep : t = .prepare
  · subst hprep
    have hrun : (restoreRun py sameDevice (only .prepare) confirm confirm w).2 = w := by
      rw [restoreRun, if_neg (by simp [hname])]
      exact congrArg Prod.snd (Act.bind_error (Act.step_fail (only_self _) _ _ _))
    rw [hrun]
    exact ⟨fun _ => Or.inr (by simp), fun _ => Restored.refl w⟩
  rw [restoreRun_run hname (only_ne (Ne.symm hprep))] at h ⊢
  rw [← restored_locked]
  unfold restoreLocked at h ⊢
  -- the checks, in the order of the source; a refusal leaves the state alone
  rcases hm : manifest w.locked.archive with e' | document
  · refine ⟨fun _ => Or.inl ?_, fun _ => Restored.refl _⟩
    exact Or.inr (Or.inr (Or.inr (Or.inl ⟨e', by rw [← locked_manifest, hm]⟩)))
  rw [hm] at h
  simp only at h ⊢
  rcases hsel : restoreSelect py w.locked document confirm with e' | ⟨index, source, target⟩
  · refine ⟨fun _ => Or.inl ?_, fun _ => Restored.refl _⟩
    exact Or.inr (Or.inr (Or.inr (Or.inr ⟨document, e', by rw [← locked_manifest, hm],
      by rw [← locked_restoreSelect, hsel]⟩)))
  rw [hsel] at h
  simp only at h ⊢
  rcases sameDevice with _ | _
  · exact ⟨fun _ => Or.inl (Or.inr (Or.inr (Or.inl rfl))), fun _ => Restored.refl _⟩
  simp only [Bool.not_true, Bool.false_eq_true, if_false] at h ⊢
  obtain ⟨-, -, -, -, hmem, htarget⟩ := restoreSelect_spec hsel
  obtain ⟨f, hf⟩ := lookup_of_mem hmem
  rw [restoreBody_restored_iff ht hf htarget h]
  refine ⟨Or.inr, fun h' => h'.resolve_left ?_⟩
  rintro (h' | h' | h' | ⟨e', h'⟩ | ⟨document', e', h1, h2⟩)
  · exact h' rfl
  · exact h' hname
  · exact absurd h' (by simp)
  · rw [← locked_manifest, hm] at h'; exact absurd h' (by simp)
  · rw [← locked_manifest, hm, Except.ok.injEq] at h1
    subst h1
    rw [← locked_restoreSelect, hsel] at h2; exact absurd h2 (by simp)

/-! ### Both calls -/

/-- **When one failing step is undone.** If a call raises, the auth files, the archived credentials
and the manifest entries are as before exactly when the call was refused by its checks, or the
failing step is one the rollback covers. -/
theorem local_calls_restored_iff (py : Py) (sameDevice : Bool) (w : World) :
    (∀ candidates movedAt t e, Batch candidates → (∀ i, t ≠ ArchiveStep.rollback i) →
      (archiveCandidates py sameDevice (only t) candidates movedAt w).1 = .error e →
        (Restored w (archiveCandidates py sameDevice (only t) candidates movedAt w).2 ↔
          Refused sameDevice w candidates ∨ Recoverable py w candidates t)) ∧
    ∀ selector confirm t e, t ≠ RestoreStep.rollback →
      (restoreRun py sameDevice (only t) selector confirm w).1 = .error e →
        (Restored w (restoreRun py sameDevice (only t) selector confirm w).2 ↔
          RestoreRefused py sameDevice w selector confirm ∨ t ≠ .chmod) :=
  ⟨fun _ _ _ _ hb ht h => archive_restored_iff ht hb h, fun _ _ _ _ ht h => restore_restored_iff ht h⟩

theorem oneBatch_batch (py : Py) : Batch [candidateFor py aJson "one"] := by
  have hj : endsWith aJson.text (lit ".json") := by decide
  refine ⟨List.nodup_singleton _, fun c hc => ?_⟩
  rw [List.mem_singleton.mp hc]
  exact hj

theorem one_select (py : Py) : select py oneWorld.locked [candidateFor py aJson "one"] =
    .ok [(candidateFor py aJson "one", aJson)] := by
  have h : oneWorld.locked.auth.lookup aJson = some (textFile "one") := by decide
  have t : uniqueTarget oneWorld.locked.archive aJson = aJson := by decide
  have s : ¬ maxAuthFileBytes < (textFile "one").bytes.length := by decide
  simp [candidateFor, select, h, t, s, Except.map]

/-- A failing `chmod` of the archived file raises and leaves the file in the archive, out of the
manifest. -/
theorem chmod_not_restored : ¬ ∃ py : Py, ∀ w candidates movedAt t e, Batch candidates →
    (∀ i, t ≠ ArchiveStep.rollback i) →
      (archiveCandidates py true (only t) candidates movedAt w).1 = .error e →
        Restored w (archiveCandidates py true (only t) candidates movedAt w).2 := by
  rintro ⟨py, h⟩
  have hm : manifest oneWorld.locked.archive =
    .ok [(lit "schema", .str manifestSchema), (lit "entries", .arr [])] := rfl
  have hsel := one_select py
  have hraise : (archiveCandidates py true (only (.chmod 0)) [candidateFor py aJson "one"] []
      oneWorld).1 = .error (archiveError false .os) := by
    rw [archiveCandidates_run (by simp) rfl, archiveLocked, hm, hsel]
    rfl
  have hr := h oneWorld _ [] (.chmod 0) _ (oneBatch_batch py) (by simp) hraise
  rw [archive_restored_iff (by simp) (oneBatch_batch py) hraise] at hr
  rcases hr with (hr | ⟨e, hr⟩ | hr) | hr
  · exact absurd hr (by simp)
  · rw [← locked_manifest, hm] at hr; exact absurd hr (by simp)
  · rw [← locked_auth, ← select_error_iff py, hsel] at hr
    exact absurd hr (by simp)
  · exact hr

/-- A failing manifest write after the one file was moved is undone, and so is one of a restore. -/
theorem local_calls_restored_one :
    let batch := [candidateFor onePy aJson "one"]
    let w1 := (archiveCandidates onePy true (fun _ => false) batch [] oneWorld).2
    Restored oneWorld
      (archiveCandidates onePy true (only (.write .replaceManifest)) batch [] oneWorld).2 ∧
    Restored w1
      (restoreRun onePy true (only (.write .replaceManifest)) aJson.text aJson.text w1).2 := by
  intro batch w1
  constructor
  · refine ((local_calls_restored_iff onePy true oneWorld).1 batch [] _
      (archiveError false .os) (oneBatch_batch onePy) (by simp) (by decide +kernel)).mpr (Or.inr ?_)
    intro n hn m _ hcol
    obtain ⟨c, hc, rfl⟩ := List.mem_map.mp hn
    rw [List.mem_singleton.mp (List.mem_of_mem_filter hc)] at hcol
    rcases hcol.1 with h | h
    · exact absurd h (by decide)
    · exact absurd h (by decide)
  · exact ((local_calls_restored_iff onePy true w1).2 aJson.text aJson.text _
      (.rejected "local CPA restore manifest failed; credential remained archived") (by simp)
      (by decide +kernel)).mpr (Or.inr (by simp))

end Cloudx.Local.ArchiveFaults
